import Rollcall.Session.World

/-!
Guests.

A guest is the client at the other end of a connection's socket. It sees what is written to it, an
answer to each of its pings that was read, and the end of the connection.
-/

namespace Rollcall.Session

structure Guest where
  conn : Nat
  /-- How many of the frames that were written it has seen. -/
  seen : Nat
  /-- How many of its frames that were read it has seen the answer to, if they have one. -/
  answered : Nat
  /-- Whether it sent or got a close frame, after which it may send nothing. -/
  parted : Bool
  /-- Whether it has vanished without a word. -/
  vanished : Bool
  /-- Whether it has seen the end. -/
  ended : Bool
deriving DecidableEq, Repr

inductive Sight where
  | frame (frame : Frame)
  | ending
deriving DecidableEq, Repr

namespace Guest

def arrive (conn : Nat) : Guest := ⟨conn, 0, 0, false, false, false⟩

/-- The answer that a frame has by itself. -/
def pong? : Frame → Option Frame
  | .ping content => some (.pong content)
  | _ => none

def isClose : Frame → Bool
  | .close _ => true
  | _ => false

/-- The frames that a guest gets to see of those written. One that has closed gets no close frame
back. -/
def visible (parted : Bool) (frames : List Frame) : List Frame :=
  if parted then frames.filter fun f => !isClose f else frames

def look (g : Guest) (w : World) : List Sight × Guest :=
  match w.conns[g.conn]? with
  | none => ([], g)
  | some c =>
      if g.vanished || g.ended then ([], g)
      else
        let written := visible g.parted (c.output.frames.drop g.seen)
        let pongs := (c.read.drop g.answered).filterMap pong?
        let ended := c.owner.hasEnded && c.writer.hasEnded
        let sights := (written ++ pongs).map Sight.frame ++ if ended then [.ending] else []
        (sights, { g with
          seen := c.output.frames.length
          answered := c.read.length
          parted := g.parted || written.any isClose
          ended })

def send (g : Guest) (frame : Frame) (w : World) : Bool × Guest × World :=
  if g.parted || g.vanished || g.ended then (false, g, w)
  else (true, { g with parted := isClose frame }, (w.arrive g.conn [.frame frame]).2)

/-- Vanish: nothing more is read from the guest, and nothing can be written to it. -/
def vanish (g : Guest) (w : World) : Guest × World :=
  ({ g with vanished := true },
    (w.arrive g.conn [.error "connection reset"]).2.setOutput g.conn .failing none)

end Guest
end Rollcall.Session
