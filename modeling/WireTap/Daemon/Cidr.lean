import WireTap.Daemon.Config

/-!
# Which clients a range holds

`Cidr` as `cidr.rs` computes it, in the words of the machine: an address's bits in a `u128`, their
number and the length of the network in a `u8`.  `network_bits` subtracts and shifts.  A subtraction
that underflows panics, and so does a shift by 128 or more that is not `checked_shr`; both are `none`
here, and so is whatever calls them then.

`Cidr.parse` is the same `from_str` over natural numbers, which the settings are resolved with.
-/

namespace WireTap.Daemon

namespace IpAddr

def isIpv4 : IpAddr → Bool
  | v4 _ => true
  | v6 _ => false

/-- `to_canonical`: an IPv4-mapped address is its IPv4 one. -/
def toCanonical : IpAddr → IpAddr
  | v4 a => .v4 a
  | v6 a => if Cidr.isMapped (.v6 a) then .v4 (.ofBitVec (a.setWidth 32)) else .v6 a

end IpAddr

namespace Cidr

/-- `bits`. -/
def bits128 : IpAddr → BitVec 128 × UInt8
  | .v4 a => (a.toBitVec.setWidth 128, 32)
  | .v6 a => (a, 128)

/-- `-` on `u8`. -/
def sub8 (a b : UInt8) : Option UInt8 := if b ≤ a then some (a - b) else none

/-- `u128::checked_shr`. -/
def checkedShr (a : BitVec 128) (n : UInt32) : Option (BitVec 128) :=
  if n < 128 then some (a >>> n.toNat) else none

/-- `<<` on `u128`. -/
def shl128 (a : BitVec 128) (n : UInt32) : Option (BitVec 128) :=
  if n < 128 then some (a <<< n.toNat) else none

/-- `network_bits`. -/
def networkBits128 (bits : BitVec 128) (width length : UInt8) : Option (BitVec 128) := do
  let host := (← sub8 width length).toUInt32
  match checkedShr bits host with
  | none => return 0
  | some b => shl128 b host

/-- `Cidr::contains`. -/
def contains (c : Cidr) (peer : IpAddr) : Option Bool := do
  let peer := peer.toCanonical
  let (peerBits, width) := bits128 peer
  let (network, _) := bits128 c.network
  if peer.isIpv4 = c.network.isIpv4 then
    return (← networkBits128 peerBits width (.ofNat c.length)) == network
  else return false

/-- `Display`. -/
def display (lib : SettingsLib) (c : Cidr) : String := s!"{lib.showIp c.network}/{c.length}"

/-- `str::parse::<u8>`. -/
def parseU8 (text : List Char) : Option UInt8 := do
  let n ← Lib.unsigned? text
  if n < UInt8.size then some (.ofNat n) else none

/-- The text before the first slash, and the one after it. -/
def splitSlash (s : String) : String × Option (List Char) :=
  match Lib.splitOnce '/' s.toList with
  | some (a, p) => (.ofList a, some p)
  | none => (s, none)

/-- The length a text asks for, if it is one an address can have. -/
def readLength (width : UInt8) : Option (List Char) → Option UInt8
  | none => some width
  | some p => (parseU8 p).filter (· ≤ width)

/-- The end of `from_str`: no bit is set past the length. -/
def refuseHostBits (lib : SettingsLib) (s : String) (network : IpAddr) (length : UInt8) :
    Option (Except String Cidr) := do
  let (bits, width) := bits128 network
  let masked ← networkBits128 bits width length
  if masked ≠ bits then
    let network : IpAddr := match network with
      | .v4 _ => .v4 (.ofBitVec (masked.setWidth 32))
      | .v6 _ => .v6 masked
    let shown := display lib ⟨network, length.toNat⟩
    return .error s!"{lib.debug s} has host bits set; the network is {shown}"
  else return .ok ⟨network, length.toNat⟩

/-- `Cidr::from_str`. -/
def fromStr (lib : SettingsLib) (s : String) : Option (Except String Cidr) :=
  let (addr, length) := splitSlash s
  match lib.parseIp addr with
  | none => some (.error s!"{lib.debug s} is not an IP address or CIDR range")
  | some network =>
    if isMapped network then some (.error s!"{lib.debug s} is IPv4-mapped; write it as IPv4")
    else
      let width := (bits128 network).2
      match readLength width length with
      | none => some (.error s!"{lib.debug s}: the prefix must be 0 to {width}")
      | some length => refuseHostBits lib s network length

end Cidr

end WireTap.Daemon
