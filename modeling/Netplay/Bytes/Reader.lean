/-
  Reading values off the front of a byte string.

  A reader answers a value or nothing, together with what it left unread.
  Reading nothing is not the same as failing silently back to the start: a
  reader built of several keeps what its parts have consumed, so a length
  prefix stays consumed when the bytes it announces are missing.

  * `take n` is the only primitive; every fixed-width read is one `take` and so
    consumes all of its bytes or none.
  * `prefixed` reads a two-byte length and then as many bytes.
  * `times n r` reads `n` values in a row.
-/
import Netplay.Bytes.Word
import Netplay.Numeric.Binary32

namespace Netplay

/-- From a byte string, a value or nothing, and what is left unread. -/
def Reader (α : Type) : Type := Bytes → Option α × Bytes

namespace Reader

variable {α β : Type}

protected def pure (a : α) : Reader α := fun bs => (some a, bs)

/-- Read with `r` and go on with its value; if it has none, stop where it
    stopped. -/
protected def bind (r : Reader α) (f : α → Reader β) : Reader β := fun bs =>
  match r bs with
  | (some a, rest) => f a rest
  | (none, rest) => (none, rest)

instance : Monad Reader where
  pure := Reader.pure
  bind := Reader.bind

@[simp] theorem pure_apply (a : α) (bs : Bytes) : (pure a : Reader α) bs = (some a, bs) := rfl

theorem bind_apply (r : Reader α) (f : α → Reader β) (bs : Bytes) :
    (r >>= f) bs = match r bs with
      | (some a, rest) => f a rest
      | (none, rest) => (none, rest) := rfl

/-- No value, nothing consumed. -/
def fail : Reader α := fun bs => (none, bs)

def ofOption : Option α → Reader α
  | some a => pure a
  | none => fail

def remaining : Reader Nat := fun bs => (some bs.length, bs)

/-- The next `n` bytes; all or none are consumed. -/
def take (n : Nat) : Reader Bytes := fun bs =>
  let front := bs.take n
  if front.length = n then (some front, bs.drop n) else (none, bs)

def u8 : Reader UInt8 := do return UInt8.ofNat (Bytes.ofBigEndian (← take 1))

/-- The next byte as a truth value: anything but zero is true. -/
def bool : Reader Bool := do return (← u8) != 0

def u16 : Reader UInt16 := do return UInt16.ofNat (Bytes.ofBigEndian (← take 2))

def i16 : Reader Int16 := do return (← u16).toInt16

def u32 : Reader UInt32 := do return UInt32.ofNat (Bytes.ofBigEndian (← take 4))

def i32 : Reader Int32 := do return (← u32).toInt32

def f32 : Reader Binary32 := do return ⟨← u32⟩

/-- A two-byte length and then as many bytes. -/
def prefixed : Reader Bytes := do take (← u16).toNat

/-- `n` values in a row, put behind those in `done`, newest first. -/
def timesOnto (r : Reader α) : Nat → List α → Reader (List α)
  | 0, done => pure done.reverse
  | n + 1, done => do timesOnto r n ((← r) :: done)

def times (n : Nat) (r : Reader α) : Reader (List α) := timesOnto r n []

/-- The value of a reader that reads the whole byte string. -/
def whole (r : Reader α) (bs : Bytes) : Option α :=
  match r bs with
  | (some a, []) => some a
  | _ => none

end Reader

end Netplay
