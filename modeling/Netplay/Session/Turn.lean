/-
  Turns of a main loop.

  The server and the client each run a loop, and a turn of either meets the
  same three things: the time, how long the last turn took, and what the socket
  answers to reading.  A run is a list of turns.
-/
import Netplay.Numeric.Duration
import Netplay.Transport.Endpoint

namespace Netplay

/-- What a turn of a main loop meets. -/
structure Turn where
  now : Duration
  /-- How long ago the last turn began. -/
  elapsed : Duration := 0
  /-- What the socket answers to reading. -/
  outcomes : List (Except SocketError Datagram) := []

end Netplay
