/-
  Socket addresses: a host and a port.

  `Address.parse?` reads the usual texts, `a.b.c.d:port` and `[groups]:port`
  or `[groups%zone]:port`, with one run of zero groups left out and the last two
  groups possibly written as four numbers with dots between them; `Address.text`
  writes them, leaving out the zone 0 and the longest run of two or more zero
  groups, the first of equally long ones.
-/
import Netplay.Bytes.Hex

namespace Netplay

inductive Host where
  /-- Four numbers below 256. -/
  | v4 (a b c d : UInt8)
  /-- Eight groups of 16 bits, in the zone of an interface; 0 names none. -/
  | v6 (groups : List UInt16) (zone : UInt32)
  deriving DecidableEq

/-- Where datagrams are sent to and come from. -/
structure Address where
  host : Host
  port : UInt16
  deriving DecidableEq

namespace Host

def localhost : Host := v4 127 0 0 1

/-- Any address of the host. -/
def unspecified : Host := v4 0 0 0 0

/-- A host that stands for all of a machine's hosts. -/
def isUnspecified : Host → Bool
  | v4 a b c d => (a, b, c, d) == (0, 0, 0, 0)
  | v6 groups _ => groups.all (· == 0)

/-- Groups that name many hosts at once. -/
def isMulticast : Host → Bool
  | v6 (g :: _) _ => g >>> 8 == 0xff
  | _ => false

/-- Groups that mean something on one link or one interface only. -/
def isLinkLocal : Host → Bool
  | v6 (g :: _) _ => g &&& 0xffc0 == 0xfe80 || g &&& 0xff0f == 0xff01 || g &&& 0xff0f == 0xff02
  | _ => false

/-- The zone of an interface that a host needs and names, if it needs one. -/
def neededZone? : Host → Option UInt32
  | h@(v6 _ zone) => if h.isLinkLocal then some zone else none
  | v4 .. => none

/-- The four numbers that groups carry; a host that carries none is itself. -/
def unwrapped : Host → Host
  | v6 [0, 0, 0, 0, 0, 0xffff, hi, lo] _ =>
    v4 (hi >>> 8).toUInt8 hi.toUInt8 (lo >>> 8).toUInt8 lo.toUInt8
  | h => h

/-- A group in hexadecimal digits, without leading zeros. -/
def hexGroup (n : Nat) : String :=
  let digits := (Hex.digits 4 n).dropWhile (· == '0')
  if digits.isEmpty then "0" else String.ofList digits

def zeroRun (groups : List UInt16) : Nat := (groups.takeWhile (· == 0)).length

/-- The start and the length of the longest run of zero groups, the first of
    equally long ones. -/
def longestZeroRun : Nat → List UInt16 → Nat × Nat
  | start, [] => (start, 0)
  | start, g :: rest =>
    let here := zeroRun (g :: rest)
    let later := longestZeroRun (start + 1) rest
    if here ≥ later.2 then (start, here) else later

def groupText (groups : List UInt16) : String :=
  String.intercalate ":" (groups.map fun g => hexGroup g.toNat)

/-- The text of a host, without its zone. -/
def text : Host → String
  | v4 a b c d => s!"{a}.{b}.{c}.{d}"
  | v6 groups zone =>
    match (v6 groups zone).unwrapped with
    | v4 a b c d => s!"::ffff:{a}.{b}.{c}.{d}"
    | v6 .. =>
      let (start, length) := longestZeroRun 0 groups
      if length ≥ 2 then
        groupText (groups.take start) ++ "::" ++ groupText (groups.drop (start + length))
      else groupText groups

end Host

namespace Address

/-- The port that the game's servers listen on unless told otherwise. -/
def gamePort : UInt16 := 27015

def text (a : Address) : String :=
  match a.host with
  | .v4 .. => s!"{a.host.text}:{a.port}"
  | .v6 _ zone =>
    if zone = 0 then s!"[{a.host.text}]:{a.port}" else s!"[{a.host.text}%{zone}]:{a.port}"

/-- A decimal number up to `max`, zeros in front allowed. -/
def number? (max : Nat) (s : String) : Option Nat :=
  if s.isEmpty || !s.all Char.isDigit then none
  else s.toNat?.bind fun n => if n ≤ max then some n else none

/-- A decimal number below 256 without zeros in front. -/
def octet? (s : String) : Option Nat :=
  if s.startsWith "0" && s != "0" then none else number? 255 s

/-- Four numbers with dots between them. -/
def v4? (s : String) : Option Host :=
  match (s.splitOn ".").map octet? with
  | [some a, some b, some c, some d] =>
    some (.v4 (UInt8.ofNat a) (UInt8.ofNat b) (UInt8.ofNat c) (UInt8.ofNat d))
  | _ => none

def group? (s : String) : Option UInt16 :=
  if s.isEmpty || s.length > 4 then none else (Hex.number? s).map UInt16.ofNat

/-- Groups with colons between them; none for the empty text. -/
def groups? (s : String) : Option (List UInt16) :=
  if s.isEmpty then some [] else (s.splitOn ":").mapM group?

/-- A last group, or two of them as four numbers with dots between them. -/
def lastGroups? (s : String) : Option (List UInt16) :=
  match v4? s with
  | some (.v4 a b c d) => some [a.toUInt16 <<< 8 ||| b.toUInt16, c.toUInt16 <<< 8 ||| d.toUInt16]
  | _ => (group? s).map ([·])

/-- Groups of which the last two may be written with dots. -/
def endGroups? (s : String) : Option (List UInt16) :=
  match (s.splitOn ":").reverse with
  | last :: front =>
    if s.isEmpty then some []
    else do return (← front.reverse.mapM group?) ++ (← lastGroups? last)
  | [] => some []

/-- Eight groups, one run of zero groups possibly left out. -/
def eightGroups? (s : String) : Option (List UInt16) :=
  match s.splitOn "::" with
  | [whole] => (endGroups? whole).bind fun gs => if gs.length = 8 then some gs else none
  | [front, back] => do
    let f ← groups? front
    let b ← endGroups? back
    if f.length + b.length ≤ 7 then
      some (f ++ List.replicate (8 - f.length - b.length) 0 ++ b)
    else none
  | _ => none

/-- Eight groups, possibly with a percent sign and a zone behind them. -/
def v6? (s : String) : Option Host :=
  match s.splitOn "%" with
  | [groups] => return .v6 (← eightGroups? groups) 0
  | [groups, zone] =>
    return .v6 (← eightGroups? groups) (UInt32.ofNat (← number? 4294967295 zone))
  | _ => none

def parse? (s : String) : Option Address :=
  match s.splitOn "]:" with
  | [front, port] =>
    if front.startsWith "[" then do
      let host ← v6? (front.drop 1).toString
      let port ← number? 65535 port
      return ⟨host, UInt16.ofNat port⟩
    else none
  | _ =>
    match s.splitOn ":" with
    | [host, port] => do
      let host ← v4? host
      let port ← number? 65535 port
      return ⟨host, UInt16.ofNat port⟩
    | _ => none

end Address

end Netplay
