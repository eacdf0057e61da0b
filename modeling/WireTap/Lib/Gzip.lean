import Mathlib.Data.List.Basic

/-!
# Gzip members of stored blocks

A gzip member whose deflate stream has only stored blocks: the ten bytes of header, blocks of at most
65535 bytes as they are, the CRC-32 and the length of the content.  `gunzip` undoes `gzip`
(`gunzip_gzip`); compressed blocks are refused.
-/

namespace WireTap.Lib.Gzip

/-! ### Numbers and the checksum -/

/-- Two bytes, least significant first. -/
def le16 (n : Nat) : List UInt8 := [.ofNat n, .ofNat (n / 256)]

/-- Four bytes, least significant first. -/
def le32 (n : UInt32) : List UInt8 := le16 n.toNat ++ le16 (n.toNat / 65536)

/-- One bit of the checksum's shift register. -/
def crcBit (crc : UInt32) : UInt32 :=
  if crc &&& 1 = 1 then (crc >>> 1) ^^^ 0xEDB88320 else crc >>> 1

/-- The register after one more byte. -/
def crcByte (crc : UInt32) (b : UInt8) : UInt32 :=
  (List.range 8).foldl (fun c _ => crcBit c) (crc ^^^ b.toUInt32)

def crc32 (bytes : List UInt8) : UInt32 := bytes.foldl crcByte 0xFFFFFFFF ^^^ 0xFFFFFFFF

/-! ### Stored blocks -/

/-- The largest stored block. -/
def blockMax : Nat := 65535

/-- The five bytes before a stored block: whether it is the last, its length and the complement. -/
def blockHeader (final : Bool) (len : Nat) : List UInt8 :=
  (if final then 1 else 0) :: (le16 len ++ le16 (blockMax - len))

/-- A deflate stream of stored blocks. -/
def stored (bytes : List UInt8) : List UInt8 :=
  if bytes.length ≤ blockMax then blockHeader true bytes.length ++ bytes
  else blockHeader false blockMax ++ bytes.take blockMax ++ stored (bytes.drop blockMax)
termination_by bytes.length
decreasing_by
  rw [List.length_drop]
  simp only [blockMax] at *
  omega

/-- The content of a stored block and what follows it. -/
def block (len : Nat) (bytes : List UInt8) : Option (List UInt8 × List UInt8) :=
  if len ≤ bytes.length then some (bytes.take len, bytes.drop len) else none

/-- The content of a deflate stream of stored blocks, and what follows it. -/
def unstored : List UInt8 → Option (List UInt8 × List UInt8)
  | kind :: l₀ :: l₁ :: c₀ :: c₁ :: bytes =>
    let len := l₀.toNat + 256 * l₁.toNat
    if c₀.toNat + 256 * c₁.toNat ≠ blockMax - len then none
    else if kind = 1 then block len bytes
    else if kind = 0 then
      if len ≤ bytes.length then
        (unstored (bytes.drop len)).map fun p => (bytes.take len ++ p.1, p.2)
      else none
    else none
  | _ => none
termination_by bytes => bytes.length
decreasing_by
  simp only [List.length_drop, List.length_cons]
  omega

theorem unstored_blockHeader {final : Bool} {len : Nat} (hlen : len ≤ blockMax)
    {content rest : List UInt8} (hcontent : content.length = len) :
    unstored (blockHeader final len ++ (content ++ rest)) =
      if final then some (content, rest)
      else (unstored rest).map fun p => (content ++ p.1, p.2) := by
  subst hcontent
  simp only [blockMax] at hlen
  have hl : content.length % 256 + 256 * (content.length / 256 % 256) = content.length := by omega
  have hc : (65535 - content.length) % 256 + 256 * ((65535 - content.length) / 256 % 256) =
      65535 - content.length := by omega
  cases final <;>
    simp [blockHeader, le16, unstored, block, blockMax, hl, hc]

theorem unstored_stored (bytes rest : List UInt8) :
    unstored (stored bytes ++ rest) = some (bytes, rest) := by
  induction bytes using stored.induct with
  | case1 bytes h =>
    rw [stored, if_pos h, List.append_assoc, unstored_blockHeader h rfl]
    rfl
  | case2 bytes h ih =>
    have hlen : (bytes.take blockMax).length = blockMax := by
      rw [List.length_take]
      omega
    rw [stored, if_neg h, List.append_assoc, List.append_assoc,
      unstored_blockHeader (Nat.le_refl _) hlen, if_neg (by decide), ih, Option.map_some,
      List.take_append_drop]

/-! ### Members -/

/-- The magic, the method, no flags, no time, no extra flags, no known system. -/
def header : List UInt8 := [0x1f, 0x8b, 8, 0, 0, 0, 0, 0, 0, 255]

/-- The checksum of the content and its length. -/
def trailer (bytes : List UInt8) : List UInt8 := le32 (crc32 bytes) ++ le32 (.ofNat bytes.length)

def gzip (bytes : List UInt8) : List UInt8 := header ++ (stored bytes ++ trailer bytes)

/-- The content of one whole member and nothing after it. -/
def gunzip (bytes : List UInt8) : Option (List UInt8) :=
  if bytes.take header.length = header then
    (unstored (bytes.drop header.length)).bind fun p =>
      if p.2 = trailer p.1 then some p.1 else none
  else none

theorem gunzip_gzip (bytes : List UInt8) : gunzip (gzip bytes) = some bytes := by
  rw [gunzip, gzip, List.take_left' rfl, if_pos rfl, List.drop_left' rfl, unstored_stored,
    Option.bind_some, if_pos rfl]

end WireTap.Lib.Gzip
