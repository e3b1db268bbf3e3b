/-
  Traffic counters and the smoothed round-trip time.

  The counters are words of 64 bits; one that is full starts again at zero.

  A ping stays pending until a pong with its sequence arrives, at most
  `maxPending` of them.  The first sample of the round-trip time is taken as it
  is; each later one moves the estimate by an eighth of the difference and the
  variance by a quarter.
-/
import Netplay.Numeric.Duration
import Netplay.Transport.Fault

namespace Netplay

/-- A ping whose pong has not arrived. -/
structure OpenPing where
  sequence : UInt16
  sentAt : Duration
  deriving DecidableEq

structure Traffic where
  packetsSent : UInt64 := 0
  packetsReceived : UInt64 := 0
  /-- Packets that arrived and were of no use. -/
  packetsDropped : UInt64 := 0
  bytesSent : UInt64 := 0
  bytesReceived : UInt64 := 0
  sendErrors : UInt64 := 0
  /-- The round-trip time in milliseconds; 100 before the first sample. -/
  rtt : Binary32 := ⟨0x42c80000⟩
  /-- Its variance; 50 before the first sample. -/
  rttVariance : Binary32 := ⟨0x42480000⟩
  /-- Pings without a pong, oldest first. -/
  pending : List OpenPing := []
  sampled : Bool := false
  deriving DecidableEq

namespace Traffic

def maxPending : Nat := 32

def countSent (s : Traffic) (bytes : Nat) : Traffic :=
  { s with packetsSent := s.packetsSent + 1, bytesSent := s.bytesSent + .ofNat bytes }

def countReceived (s : Traffic) (bytes : Nat) : Traffic :=
  { s with
    packetsReceived := s.packetsReceived + 1
    bytesReceived := s.bytesReceived + .ofNat bytes }

def countDropped (s : Traffic) : Traffic :=
  { s with packetsDropped := s.packetsDropped + 1 }

def countFailure (s : Traffic) : Traffic :=
  { s with sendErrors := s.sendErrors + 1 }

/-- What came of sending a datagram; a transient failure does not count. -/
def countOutcome (s : Traffic) : Except SocketError Nat → Traffic
  | .ok bytes => s.countSent bytes
  | .error e => if e.isTransient then s else s.countFailure

/-- A ping was sent; the oldest ones make room for it. -/
def notePing (s : Traffic) (sequence : UInt16) (now : Duration) : Traffic :=
  { s with
    pending := s.pending.drop (s.pending.length + 1 - maxPending) ++ [⟨sequence, now⟩] }

/-- Fold a sample, in milliseconds, into the estimate. -/
def smooth (s : Traffic) (sample : Binary32) : Traffic :=
  if s.sampled then
    let eighth : Binary32 := ⟨0x3e000000⟩
    let quarter : Binary32 := ⟨0x3e800000⟩
    let difference := (sample - s.rtt).abs
    { s with
      rttVariance := (Binary32.one - quarter) * s.rttVariance + quarter * difference
      rtt := (Binary32.one - eighth) * s.rtt + eighth * sample }
  else { s with rtt := sample, rttVariance := sample / .two, sampled := true }

/-- A pong arrived: the time since its ping if that is pending, and the
    statistics with the sample folded in. -/
def notePong (s : Traffic) (sequence : UInt16) (now : Duration) :
    Option Duration × Traffic :=
  match s.pending.find? fun p => p.sequence == sequence with
  | none => (none, s)
  | some p =>
    let sample : Duration := now - p.sentAt
    (some sample,
      { s with pending := s.pending.eraseP fun p => p.sequence == sequence }.smooth
        (Duration.seconds sample * Binary32.ofNat 1000))

/-- The share of arrived packets that were of no use, by the counters. -/
def dropRate (s : Traffic) : Binary32 :=
  let total := s.packetsReceived + s.packetsDropped
  if total = 0 then .zero
  else Binary32.ofNat s.packetsDropped.toNat / Binary32.ofNat total.toNat

end Traffic

end Netplay
