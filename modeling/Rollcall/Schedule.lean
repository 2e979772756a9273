/-!
Schedules.

A machine is a state that several tasks and an operator change step by step, on a clock that stands
still while anyone can take a step. Any order of steps is a run of the machine. The schedule here is
one of them: tasks take turns in the order in which they became able to go on, each until it has to
wait; the operator goes when no task is in line; when nobody can go on the clock moves to the next
moment at which somebody waits for it.
-/

namespace Rollcall

/-- Steps on states `σ` by tasks named by `τ`. -/
structure Machine (σ τ : Type) where
  tasks : σ → List τ
  /-- One step of a task, none while it waits or when it has ended. -/
  step : σ → τ → Option σ
  /-- One step of the operator. -/
  operate : σ → Option σ
  now : σ → Nat
  setNow : σ → Nat → σ
  /-- The moments that somebody waits for. -/
  deadlines : σ → List Nat

namespace Machine

variable {σ τ : Type} [BEq τ]

/-- Steps of one task until it has to wait, at most `fuel`. -/
def turn (m : Machine σ τ) (t : τ) : (fuel : Nat) → σ → σ
  | 0, s => s
  | fuel + 1, s =>
      match m.step s t with
      | none => s
      | some s => turn m t fuel s

def isReady (m : Machine σ τ) (s : σ) (t : τ) : Bool := (m.step s t).isSome

/-- The line with all who can go on now and are not in it yet. -/
def line (m : Machine σ τ) (s : σ) (queue : List τ) : List τ :=
  queue ++ (m.tasks s).filter fun t => !queue.contains t && m.isReady s t

/-- The clock moved to the next moment that somebody waits for. -/
def tick (m : Machine σ τ) (s : σ) : Option σ :=
  match ((m.deadlines s).filter (m.now s < ·)).min? with
  | none => none
  | some moment => some (m.setNow s moment)

/-- A schedule that ends where the operator is done, which `isDone` tells, or nobody can go on. -/
def run (m : Machine σ τ) (isDone : σ → Bool) : (fuel : Nat) → List τ → σ → σ
  | 0, _, s => s
  | fuel + 1, queue, s =>
      match queue with
      | t :: queue =>
          let s := m.turn t fuel s
          run m isDone fuel (m.line s queue) s
      | [] =>
          if isDone s then s
          else
            match m.operate s with
            | some s => if isDone s then s else run m isDone fuel (m.line s []) s
            | none =>
                match m.line s [] with
                | t :: queue => run m isDone fuel (t :: queue) s
                | [] =>
                    match m.tick s with
                    | some s => run m isDone fuel [] s
                    | none => s

/-- How many turns a schedule may take. -/
def patience : Nat := 10000000

end Machine
end Rollcall
