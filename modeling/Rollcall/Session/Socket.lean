import Rollcall.Frame

/-!
The two halves of a socket.

What arrives waits in the input until it is read. The output takes frames, holds them up or fails;
it may change from one to the other after a number of frames.
-/

namespace Rollcall.Session

inductive Arrival where
  | frame (frame : Frame)
  | error (detail : String)
deriving DecidableEq, Repr, Inhabited

structure Input where
  /-- Arrived and not yet read. -/
  waiting : List Arrival
  /-- Whether nothing more will arrive. -/
  ended : Bool
deriving Repr

inductive OutputMode where
  | accepting
  /-- Takes no frame and cannot be closed. -/
  | stalled
  /-- Every write is an error; closing is not. -/
  | failing
deriving DecidableEq, Repr, Inhabited

structure Output where
  mode : OutputMode
  /-- After so many more frames, the mode that follows. -/
  change : Option (Nat × OutputMode)
  /-- The frames written so far. -/
  frames : List Frame
  closed : Bool
deriving Repr

namespace Output

/-- Set the mode and the change to come; one that is due at once is made at once. -/
def setMode (o : Output) (mode : OutputMode) (change : Option (Nat × OutputMode)) : Output :=
  match change with
  | some (0, next) => { o with mode := next, change := none }
  | _ => { o with mode, change }

def create (mode : OutputMode) (change : Option (Nat × OutputMode)) : Output :=
  setMode ⟨mode, none, [], false⟩ mode change

def write (o : Output) (frame : Frame) : Output :=
  let o := { o with frames := o.frames ++ [frame] }
  match o.change with
  | some (n, next) => o.setMode o.mode (some (n - 1, next))
  | none => o

end Output
end Rollcall.Session
