import WireTap.Cache.Rows
import WireTap.Gateway.FrameRow

/-!
# A record through a daemon

A record pushed to a daemon's listener is decoded to a sample, waits in the disk cache or does not,
and is forwarded to the gateway as a record of its own.
-/

namespace WireTap.Wire

open Gateway (FrameRow)

variable {φ κ ρ : Type} (can : CanLib φ) (protocol : ProtocolLib φ κ) (secs : Secs ρ)

/-- The sample as it comes out of the disk cache, if it went through it. -/
def cache (cached : Bool) (s : Sample) : Option Sample :=
  if cached then (readRow can protocol secs (rowOf can protocol secs s)).toOption else some s

/-- The row of a sample that is forwarded. -/
def forwardedRow (s : Sample) : Option FrameRow :=
  let (tsUs, r) := protocol.carry (record can protocol s)
  FrameRow.new can protocol tsUs r

/-- The row of a record relayed by a daemon that took it at `tsUs`. -/
def relayedRow (cached : Bool) (tsUs : Int) (r : Record) : Option FrameRow := do
  let s ← decode can protocol tsUs r
  let s ← cache can protocol secs cached s
  forwardedRow can protocol s

end WireTap.Wire
