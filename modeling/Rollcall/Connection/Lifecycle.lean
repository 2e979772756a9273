/-!
Life of a connection.

`connecting → open → closing → closed`, where a connection may also go from connecting straight to
closing. Any other step is refused and leaves the state as it is.
-/

namespace Rollcall.Connection

inductive Stage where
  | connecting
  | opened
  | closing
  | closed
deriving DecidableEq, Repr, Inhabited

namespace Stage

def name : Stage → String
  | .connecting => "connecting"
  | .opened => "open"
  | .closing => "closing"
  | .closed => "closed"

def mayBecome : Stage → Stage → Bool
  | .connecting, .opened => true
  | .connecting, .closing => true
  | .opened, .closing => true
  | .closing, .closed => true
  | _, _ => false

/-- Whether the step was taken, and the stage after it. -/
def advance (s next : Stage) : Bool × Stage :=
  if s.mayBecome next then (true, next) else (false, s)

end Stage

inductive CloseReason where
  /-- The client sent a close frame. -/
  | clientClosed
  /-- The input ended without a close frame. -/
  | streamEnded
  | readError (detail : String)
  | writeFailed
  /-- Evicted by a broadcast, or closed by the server. -/
  | serverClosed
deriving DecidableEq, Repr, Inhabited

def CloseReason.text : CloseReason → String
  | .clientClosed => "client closed"
  | .streamEnded => "stream ended"
  | .readError detail => "read error: " ++ detail
  | .writeFailed => "write failed"
  | .serverClosed => "server closed"

end Rollcall.Connection
