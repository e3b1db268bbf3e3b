/-
  The kinds of value that payloads are made of, written and read.

  Words travel most significant byte first, a truth value as one byte 0 or 1,
  a number as its bits, a byte string behind its two-byte length.  A byte
  string longer than a length can say is cut to `maxPrefixed` bytes.
-/
import Netplay.Bytes.Reader

namespace Netplay

namespace Bytes

/-- The longest byte string that a two-byte length can announce. -/
def maxPrefixed : Nat := 65535

/-- One byte, 0 or 1. -/
def ofBool (b : Bool) : Bytes := [if b then 1 else 0]

def ofInt16 (i : Int16) : Bytes := be16 i.toUInt16

def ofInt32 (i : Int32) : Bytes := be32 i.toUInt32

def ofBinary32 (a : Binary32) : Bytes := be32 a.bits

/-- A two-byte length and the bytes, cut to what the length can say. -/
def behindLength (bs : Bytes) : Bytes :=
  let kept := bs.take maxPrefixed
  be16 (UInt16.ofNat kept.length) ++ kept

end Bytes

/-- A value of one of the kinds that payloads are made of. -/
inductive Field where
  | u8 (v : UInt8)
  | bool (v : Bool)
  | u16 (v : UInt16)
  | i16 (v : Int16)
  | u32 (v : UInt32)
  | i32 (v : Int32)
  | f32 (v : Binary32)
  | prefixed (v : Bytes)
  deriving DecidableEq

namespace Field

inductive Kind where
  | u8 | bool | u16 | i16 | u32 | i32 | f32 | prefixed
  deriving DecidableEq

namespace Kind

def all : List Kind := [u8, bool, u16, i16, u32, i32, f32, prefixed]

def name : Kind → String
  | u8 => "u8"
  | bool => "bool"
  | u16 => "u16"
  | i16 => "i16"
  | u32 => "u32"
  | i32 => "i32"
  | f32 => "f32"
  | prefixed => "prefixed"

end Kind

def kind : Field → Kind
  | u8 _ => .u8
  | bool _ => .bool
  | u16 _ => .u16
  | i16 _ => .i16
  | u32 _ => .u32
  | i32 _ => .i32
  | f32 _ => .f32
  | prefixed _ => .prefixed

def write : Field → Bytes
  | u8 v => [v]
  | bool v => Bytes.ofBool v
  | u16 v => Bytes.be16 v
  | i16 v => Bytes.ofInt16 v
  | u32 v => Bytes.be32 v
  | i32 v => Bytes.ofInt32 v
  | f32 v => Bytes.ofBinary32 v
  | prefixed v => Bytes.behindLength v

def read : Kind → Reader Field
  | .u8 => do return u8 (← Reader.u8)
  | .bool => do return bool (← Reader.bool)
  | .u16 => do return u16 (← Reader.u16)
  | .i16 => do return i16 (← Reader.i16)
  | .u32 => do return u32 (← Reader.u32)
  | .i32 => do return i32 (← Reader.i32)
  | .f32 => do return f32 (← Reader.f32)
  | .prefixed => do return prefixed (← Reader.prefixed)

end Field

end Netplay
