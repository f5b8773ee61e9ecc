import WireSpaces.Crc
import WireSpaces.Stuffing

/-!
The byte-stuffed HDLC framing of the UART link: the incremental decoder of one
bounded frame at a time, and the encoder into storage of its caller.
-/
namespace WireSpaces.Hdlc
open WireSpaces.Codec WireSpaces.Crc

def kFlag : U8 := 0x7E
def kEscape : U8 := 0x7D
def kEscapeXor : U8 := 0x20
def kCrcSize : Nat := 2

/-! ### Decoder -/

/-- `HdlcDecoder<capacity>`: its array has room for the trailer. -/
structure HdlcDecoder (capacity : Nat) where
  storage : Bytes := List.replicate (capacity + kCrcSize) 0
  frameSize : Nat := 0
  inFrame : Bool := false
  escaped : Bool := false
  frameReady : Bool := false
  storage_length : storage.length = capacity + kCrcSize := by simp
  size_le : frameSize ≤ capacity + kCrcSize := by simp

section decoder
variable {capacity : Nat}

def frame (d : HdlcDecoder capacity) : Bytes := d.storage.take d.frameSize

def consume (d : HdlcDecoder capacity) : HdlcDecoder capacity :=
  { d with frameSize := 0, frameReady := false, size_le := Nat.zero_le _ }

def hasValidCrc (d : HdlcDecoder capacity) : Bool :=
  if d.frameSize ≤ kCrcSize then false
  else
    let payloadSize := d.frameSize - kCrcSize
    let receivedCrc := readU16 d.storage payloadSize
    receivedCrc == compute Crc16CcittFalse (d.storage.take payloadSize)

/-- The flag ends what came before it and begins the next frame. -/
def pushFlag (d : HdlcDecoder capacity) : HdlcDecoder capacity × Bool :=
  let completed := d.inFrame && !d.escaped && hasValidCrc d
  if completed then
    ({ d with
      inFrame := true, escaped := false, frameSize := d.frameSize - kCrcSize, frameReady := true
      size_le := (Nat.sub_le _ _).trans d.size_le },true)
  else ({ d with inFrame := true, escaped := false, frameSize := 0, size_le := Nat.zero_le _ },false)

/-- A byte of the frame, stored unless the array is full. -/
def append (byte : U8) (d : HdlcDecoder capacity) : HdlcDecoder capacity :=
  if full : d.frameSize ≥ capacity + kCrcSize then
    { d with frameSize := 0, inFrame := false, escaped := false, size_le := Nat.zero_le _ }
  else
    { d with
      storage := d.storage.set d.frameSize byte, frameSize := d.frameSize + 1
      storage_length := by rw [List.length_set,d.storage_length]
      size_le := by omega }

def push (byte : U8) (d : HdlcDecoder capacity) : HdlcDecoder capacity × Bool :=
  if d.frameReady then (d,true)
  else if byte = kFlag then pushFlag d
  else if !d.inFrame then (d,false)
  else if d.escaped then (append (byte ^^^ kEscapeXor) { d with escaped := false },false)
  else if byte = kEscape then ({ d with escaped := true },false)
  else (append byte d,false)

/-- One pushed byte, with `consume` after a completed frame: the frame, if there is one. -/
def step (d : HdlcDecoder capacity) (byte : U8) : HdlcDecoder capacity × Option Bytes :=
  let pushed := push byte d
  if pushed.2 then (consume pushed.1,some (frame pushed.1)) else (pushed.1,none)

/-- The decoder after a stream. -/
def after (d : HdlcDecoder capacity) (stream : Bytes) : HdlcDecoder capacity :=
  stream.foldl (fun d byte => (step d byte).1) d

/-- What each byte of a stream completes. -/
def completions (d : HdlcDecoder capacity) : Bytes → List (Option Bytes)
  | [] => []
  | byte :: rest => (step d byte).2 :: completions (step d byte).1 rest

/-- The frames a stream completes. -/
def frames (d : HdlcDecoder capacity) (stream : Bytes) : List Bytes := (completions d stream).reduceOption

end decoder

/-! ### Encoder -/

def stuffedSize (byte : U8) : Nat := if byte = kFlag ∨ byte = kEscape then 2 else 1

def encodedSize (payload : Bytes) : Nat :=
  if payload = [] then 0
  else
    let result := payload.foldl (fun result byte => result + stuffedSize byte) 2
    let crc := compute Crc16CcittFalse payload
    result + stuffedSize (crc.setWidth 8) + stuffedSize ((crc >>> 8).setWidth 8)

/-- The destination and the next index in it. -/
def write (out : Bytes × Nat) (byte : U8) : Bytes × Nat := (out.1.set out.2 byte,out.2 + 1)

def writeStuffed (out : Bytes × Nat) (byte : U8) : Bytes × Nat :=
  if byte = kFlag ∨ byte = kEscape then write (write out kEscape) (byte ^^^ kEscapeXor) else write out byte

/-- The destination as `encode` leaves it, and the number of bytes it reports. -/
def encode (payload destination : Bytes) : Bytes × Nat :=
  let requiredSize := encodedSize payload
  if destination = [] ∨ requiredSize = 0 ∨ destination.length < requiredSize then (destination,0)
  else
    let out := write (destination,0) kFlag
    let out := payload.foldl writeStuffed out
    let crc := compute Crc16CcittFalse payload
    let trailer := [crc.setWidth 8,(crc >>> 8).setWidth 8]
    let out := trailer.foldl writeStuffed out
    write out kFlag

end WireSpaces.Hdlc
