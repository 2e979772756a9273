/-!
Frames.

What travels over a socket (`Frame`) and what waits in a connection's outbound queue (`Outbound`).
-/

namespace Rollcall

inductive Frame where
  | text (content : String)
  | binary (content : List UInt8)
  | ping (content : List UInt8)
  | pong (content : List UInt8)
  /-- A close frame with its code and reason, if it carries them. -/
  | close (detail : Option (Nat × String))
deriving DecidableEq, Repr, Inhabited

inductive Outbound where
  | text (content : String)
  | binary (content : List UInt8)
  /-- Send a close frame and stop writing. -/
  | close
deriving DecidableEq, Repr, Inhabited

namespace Outbound

def isClose : Outbound → Bool
  | .close => true
  | _ => false

def goingAway : Nat := 1001

def frame : Outbound → Frame
  | .text s => .text s
  | .binary b => .binary b
  | .close => .close (some (goingAway, "server closing connection"))

/-- The text frame that tells the clients how many users are online. -/
def announcement (online : Nat) : Outbound := .text ("Online users: " ++ toString online)

end Outbound

/-- The payload a client sent, if the frame carries one for others to see. -/
def Frame.payload? : Frame → Option Outbound
  | .text s => some (.text s)
  | .binary b => some (.binary b)
  | _ => none

inductive MessagePolicy where
  /-- It goes back to its sender. -/
  | echo
  /-- It goes to every connection of the instance. -/
  | relay
deriving DecidableEq, Repr, Inhabited

def MessagePolicy.name : MessagePolicy → String
  | .echo => "echo"
  | .relay => "relay"

end Rollcall
