/-!
The close signal.

How the owner of a connection learns that it is to close. Raising the signal sets a flag, and the
first to set it wakes the wait of the owner or, if there is none, leaves a permit. A wait looks at
the flag, then takes the permit or is registered; it may be abandoned, which hands a wake-up that
came too late back as a permit. Each operation here is one atomic step, so `raise` and `begin` are
two steps each and others may come between them.
-/

namespace Rollcall.Connection

inductive Wait where
  | none
  | pending
  /-- Woken, but not yet noticed by the owner. -/
  | woken
deriving DecidableEq, Repr, Inhabited

structure CloseSignal where
  raised : Bool
  permit : Bool
  wait : Wait
deriving DecidableEq, Repr, Inhabited

namespace CloseSignal

def initial : CloseSignal := ⟨false, false, .none⟩

/-- Set the flag: whether it was clear, and the signal after it. -/
def setFlag (s : CloseSignal) : Bool × CloseSignal := (!s.raised, { s with raised := true })

/-- Wake a pending wait, or leave the permit. -/
def notify (s : CloseSignal) : CloseSignal :=
  if s.wait = .pending then { s with wait := .woken } else { s with permit := true }

/-- Ask the owner to close. Doing so again changes nothing. -/
def raise (s : CloseSignal) : CloseSignal :=
  match s.setFlag with
  | (true, s) => s.notify
  | (false, s) => s

/-- Take the permit, or register the wait: whether the wait is over. -/
def register (s : CloseSignal) : Bool × CloseSignal :=
  if s.permit then (true, { s with permit := false }) else (false, { s with wait := .pending })

/-- Start a wait: whether it is over at once. -/
def begin (s : CloseSignal) : Bool × CloseSignal := if s.raised then (true, s) else s.register

/-- Look at a registered wait: whether it is over. -/
def resume (s : CloseSignal) : Bool × CloseSignal :=
  if s.wait = .woken then (true, { s with wait := .none }) else (false, s)

/-- Look at the wait, which is started where there is none: whether it is over. -/
def poll (s : CloseSignal) : Bool × CloseSignal := if s.wait = .none then s.begin else s.resume

/-- Give a wait up; a wake-up that was not noticed becomes the permit. -/
def abandon (s : CloseSignal) : CloseSignal :=
  if s.wait = .woken then { s with wait := .none, permit := true } else { s with wait := .none }

theorem raised_raise (s : CloseSignal) : s.raise.raised = true := by
  unfold raise setFlag notify
  cases s.raised <;> simp
  split <;> rfl

/-- A signal that was raised is not changed by being raised again. -/
theorem raise_of_raised (s : CloseSignal) (h : s.raised = true) : s.raise = s := by
  cases s
  simp_all [raise, setFlag]

theorem raised_begin (s : CloseSignal) : s.begin.2.raised = s.raised := by
  unfold begin register
  split
  · rfl
  · split <;> rfl

theorem raised_resume (s : CloseSignal) : s.resume.2.raised = s.raised := by
  unfold resume
  split <;> rfl

theorem raised_poll (s : CloseSignal) : s.poll.2.raised = s.raised := by
  unfold poll
  split
  · exact s.raised_begin
  · exact s.raised_resume

theorem raised_abandon (s : CloseSignal) : s.abandon.raised = s.raised := by
  unfold abandon
  split <;> rfl

/-- Nothing is left of a look in vain once the wait is given up. -/
theorem abandon_poll (s : CloseSignal) (hwaits : s.poll.1 = false) :
    s.poll.2.abandon = s.abandon := by
  obtain ⟨raised, permit, wait⟩ := s
  cases raised <;> cases permit <;> cases wait <;> simp_all [poll, begin, register, resume, abandon]

end CloseSignal
end Rollcall.Connection
