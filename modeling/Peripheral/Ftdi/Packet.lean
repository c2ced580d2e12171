import Peripheral.Chunks

/-
  Peripheral.Ftdi.Packet — what an FTDI chip sends: packets of one size, the last one perhaps
  shorter, each led by two bytes of modem status.

  `payload` is what the chip has to say. `strip` puts as much of it as fits at the front of a
  buffer and leaves the rest of the buffer alone; `rawSize` is what has to be read for a given
  number of payload bytes.

  `strip?` and `rawSize?` do the same one step at a time, with a place kept in the buffer and
  numbers below a limit, and give up where a cut or a number is out of range.
-/

namespace Peripheral.Ftdi

/-- Bytes of modem status at the head of a packet. -/
def statusLength : Nat := 2

/-- All bytes but the status bytes; nothing if a packet has room for no others. -/
def payload (packetSize : Nat) (raw : List UInt8) : List UInt8 :=
  if packetSize ≤ statusLength then [] else (chunks packetSize raw).flatMap (·.drop statusLength)

/-- Copies packet by packet into the `room` bytes of a buffer until it is full. -/
def copyPackets : List (List UInt8) → (room : Nat) → List UInt8
  | [], _ => []
  | p :: ps, room =>
    if p.length ≤ statusLength then copyPackets ps room
    else
      let taken := (p.drop statusLength).take room
      if taken.length = room then taken else taken ++ copyPackets ps (room - taken.length)

/-- The bytes written at the front of a buffer of `room` bytes. -/
def stripped (packetSize : Nat) (raw : List UInt8) (room : Nat) : List UInt8 :=
  if packetSize ≤ statusLength then [] else copyPackets (chunks packetSize raw) room

/-- The number of bytes written, and the buffer afterwards. -/
def strip (packetSize : Nat) (raw buffer : List UInt8) : Nat × List UInt8 :=
  let w := stripped packetSize raw buffer.length
  (w.length, w ++ buffer.drop w.length)

/-- Bytes put into a buffer from a place on; nothing if they do not fit there. -/
def writeAt? (place : Nat) (bytes buffer : List UInt8) : Option (List UInt8) :=
  if place + bytes.length ≤ buffer.length then
    some (buffer.take place ++ bytes ++ buffer.drop (place + bytes.length))
  else none

/-- `copyPackets` on the buffer itself: the place and the buffer after the packets, nothing if a cut is out of
    range. -/
def fill? : List (List UInt8) → (place : Nat) → (buffer : List UInt8) → Option (Nat × List UInt8)
  | [], place, buffer => some (place, buffer)
  | p :: ps, place, buffer =>
    if p.length ≤ statusLength then fill? ps place buffer
    else if buffer.length < place then none
    else
      let bytes := (p.drop statusLength).take (buffer.length - place)
      (writeAt? place bytes buffer).bind fun buffer =>
        if place + bytes.length = buffer.length then some (place + bytes.length, buffer)
        else fill? ps (place + bytes.length) buffer

/-- `strip` with every cut checked. -/
def strip? (packetSize : Nat) (raw buffer : List UInt8) : Option (Nat × List UInt8) :=
  if packetSize ≤ statusLength then some (0, buffer) else fill? (chunks packetSize raw) 0 buffer

/-- Whole packets that hold `len` payload bytes, for a packet size above two. -/
def rawSize (len packetSize : Nat) : Nat :=
  let perPacket := packetSize - statusLength
  (len + perPacket - 1) / perPacket * packetSize

/-- `rawSize` in numbers below a limit; nothing if one of them is out of range or a divisor is zero. -/
def rawSize? (limit len packetSize : Nat) : Option Nat :=
  if packetSize < statusLength then none
  else if packetSize - statusLength = 0 then none
  else
    let whole := len / (packetSize - statusLength)
    let packets := if len % (packetSize - statusLength) = 0 then whole else whole + 1
    if limit ≤ packets then none
    else if limit ≤ packets * packetSize then none
    else some (packets * packetSize)

end Peripheral.Ftdi
