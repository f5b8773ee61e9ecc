import WireSpaces.Codec

/-!
The bitwise CRC. A register of any width takes the input byte by byte at its high
end and then shifts out eight bits, each of which decides whether the polynomial
is folded in.
-/
namespace WireSpaces.Crc
open WireSpaces.Codec

/-- `ComputeFlags`: which ends of the computation one call performs. -/
def kInitialize : U8 := 1 <<< 0
def kFinalize : U8 := 1 <<< 1
def kDefaultComputeFlags : U8 := kInitialize ||| kFinalize

/-- A CRC without reflection over a register of `w` bits. -/
structure Algorithm (w : Nat) where
  polynomial : BitVec w
  initial : BitVec w
  xorOut : BitVec w

section bitwise
variable {w : Nat}

def kMsbBit (w : Nat) : BitVec w := 1#w <<< (w - 1)
def kDataShift (w : Nat) : Nat := w - 8

def shiftBit (a : Algorithm w) (result : BitVec w) : BitVec w :=
  if result &&& kMsbBit w ≠ 0 then (result <<< 1) ^^^ a.polynomial else result <<< 1

def feedByte (a : Algorithm w) (result : BitVec w) (byte : U8) : BitVec w :=
  (List.range 8).foldl (fun result _ => shiftBit a result) (result ^^^ (byte.setWidth w <<< kDataShift w))

def crcBitwise (a : Algorithm w) (input : Bytes) (initial : BitVec w) (flags : U8) : BitVec w :=
  let result := if flags &&& kInitialize ≠ 0 then a.initial else initial
  let result := input.foldl (feedByte a) result
  if flags &&& kFinalize ≠ 0 then result ^^^ a.xorOut else result

/-- `compute` over one span, with its default flags. -/
def compute (a : Algorithm w) (input : Bytes) : BitVec w := crcBitwise a input a.initial kDefaultComputeFlags

/-- The register before any input. -/
def init (a : Algorithm w) : BitVec w := crcBitwise a [] a.initial kInitialize

def update (a : Algorithm w) (input : Bytes) (state : BitVec w) : BitVec w := crcBitwise a input state 0

def finalize (a : Algorithm w) (state : BitVec w) : BitVec w := crcBitwise a [] state kFinalize

end bitwise

def SaeJ1850 : Algorithm 8 where
  polynomial := 0x1D
  initial := 0xFF
  xorOut := 0xFF

def AutosarCrc8 : Algorithm 8 where
  polynomial := 0x2F
  initial := 0xFF
  xorOut := 0xFF

def Crc16CcittFalse : Algorithm 16 where
  polynomial := 0x1021
  initial := 0xFFFF
  xorOut := 0

def Crc32Mpeg2 : Algorithm 32 where
  polynomial := 0x04C11DB7
  initial := 0xFFFFFFFF
  xorOut := 0

example : compute Crc16CcittFalse [0x31,0x32,0x33,0x34,0x35,0x36,0x37,0x38,0x39] = 0x29B1 := by decide +kernel

end WireSpaces.Crc
