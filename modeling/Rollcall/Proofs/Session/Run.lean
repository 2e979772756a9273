import Rollcall.Session.World

/-!
Runs of a world.

An event is one thing that can happen: a task or the operator takes a step, time goes by, something
arrives from outside, or an order is given. A run is any sequence of events, so whatever holds at
the end of every run holds for every interleaving of the tasks. The schedule of `World.machine` is
one such run (`Run.schedule`).
-/

namespace Rollcall.Session

open Connection

inductive Order where
  | sleep (millis : Nat)
  | broadcast (message : Outbound)
  | announce
  | shutdown (limit pace : Nat)

inductive Event where
  | turn (task : Task)
  /-- The operator takes a step. -/
  | operate
  | pass (millis : Nat)
  | connect (user : String) (input : Input) (output : Output)
  | arrive (conn : Nat) (arrivals : List Arrival)
  | endInput (conn : Nat)
  | setOutput (conn : Nat) (mode : OutputMode) (change : Option (Nat × OutputMode))
  /-- The owner of a connection is to be dropped at its next turn. -/
  | abort (conn : Nat)
  /-- The owner of a connection is dropped where no task can be started any more. -/
  | orphan (conn : Nat)
  | setGate (gate : Presence.Gate)
  | close (conn : Nat)
  | remove (conn : Nat)
  | closeAll
  /-- A free operator takes an order. -/
  | order (what : Order)

namespace Event

/-- Whether the instance does this by itself, with nothing coming from outside. -/
def isWork : Event → Bool
  | .turn _ => true
  | .operate => true
  | .pass _ => true
  | _ => false

/-- Whether this can happen while tasks can be started. -/
def insideRuntime : Event → Bool
  | .orphan _ => false
  | _ => true

def closesAll : Event → Bool
  | .closeAll => true
  | .order (.shutdown ..) => true
  | _ => false

end Event

namespace World

/-- The world once the operator has taken an order. -/
def take (w : World) : Order → World
  | .sleep millis => { w with operator := .sleeping (w.site.now + millis) }
  | .broadcast message =>
      let (b, site) := w.site.beginBroadcast .order message
      { w with operator := .broadcasting b, site }
  | .announce => { w with operator := .announcing (Announcement.start w.site) }
  | .shutdown limit pace =>
      let (signalled, hub) := w.site.hub.closeAll
      let site := { w.site with hub }
      { w with operator := .draining (Drain.start site.now limit pace signalled), site }

/-- The world after an event, none if it cannot happen now. -/
def after (w : World) : Event → Option World
  | .turn task => w.step task
  | .operate => w.operate
  | .pass millis => some (machine.setNow w (w.site.now + millis))
  | .connect user input output => some (w.connect user input output).2
  | .arrive i arrivals => some (w.arrive i arrivals).2
  | .endInput i => some (w.endInput i)
  | .setOutput i mode change => some (w.setOutput i mode change)
  | .abort i => some (w.abort i)
  | .orphan i => some (w.orphan i)
  | .setGate gate => some (w.setGate gate)
  | .close i => some (w.close i).2
  | .remove i => some (w.remove i).2
  | .closeAll => some w.closeAll.2
  | .order what => if w.operator.isFree then some (w.take what) else none

/-- The world after a list of events, none if one of them cannot happen. -/
def play (w : World) : List Event → Option World
  | [] => some w
  | e :: rest => (w.after e).bind fun w => w.play rest

end World

/-- Runs from `w` in which every event is one that `may` allows. -/
inductive Run (may : Event → Prop) (w : World) : World → Prop where
  | refl : Run may w w
  | step {v v' : World} (e : Event) (run : Run may w v) (hmay : may e)
      (hafter : v.after e = some v') : Run may w v'

namespace Run

variable {may : Event → Prop} {u v w : World}

theorem trans (huv : Run may u v) (hvw : Run may v w) : Run may u w := by
  induction hvw with
  | refl => exact huv
  | step e _ hmay hafter ih => exact .step e ih hmay hafter

theorem single (e : Event) (hmay : may e) (hafter : v.after e = some w) : Run may v w :=
  .step e .refl hmay hafter

/-- What holds at the start and is kept by every allowed event holds at the end. -/
theorem invariant {Inv : World → Prop}
    (hstep : ∀ e v v', may e → v.after e = some v' → Inv v → Inv v')
    (run : Run may v w) (hstart : Inv v) : Inv w := by
  induction run with
  | refl => exact hstart
  | step e _ hmay hafter ih => exact hstep e _ _ hmay hafter ih

theorem of_play {events : List Event} (hmay : ∀ e ∈ events, may e)
    (hplay : v.play events = some w) : Run may v w := by
  induction events generalizing v with
  | nil =>
      cases hplay
      exact .refl
  | cons e rest ih =>
      simp only [World.play, Option.bind_eq_some_iff] at hplay
      obtain ⟨next, hafter, hrest⟩ := hplay
      have hlater := ih (fun e he => hmay e (List.mem_cons_of_mem _ he)) hrest
      exact (single e (hmay e List.mem_cons_self) hafter).trans hlater

section Schedule

variable (hwork : ∀ e : Event, e.isWork → may e)

include hwork

theorem turns (task : Task) (fuel : Nat) (w : World) :
    Run may w (World.machine.turn task fuel w) := by
  induction fuel generalizing w with
  | zero => exact .refl
  | succ fuel ih =>
      simp only [Machine.turn]
      split
      · exact .refl
      case h_2 next hstep => exact (single (.turn task) (hwork _ rfl) hstep).trans (ih next)

theorem tick (htick : World.machine.tick v = some w) : Run may v w := by
  unfold Machine.tick at htick
  split at htick
  · cases htick
  case h_2 moment hmin =>
    cases htick
    have hlater : v.site.now < moment :=
      of_decide_eq_true (List.mem_filter.mp (List.min?_mem hmin)).2
    refine single (.pass (moment - v.site.now)) (hwork _ rfl) ?_
    simp only [World.after, Option.some.injEq]
    congr 1
    omega

/-- The schedule does nothing but what tasks, operator and clock can do one after another. -/
theorem schedule (isDone : World → Bool) (fuel : Nat) (queue : List Task) (w : World) :
    Run may w (World.machine.run isDone fuel queue w) := by
  induction fuel generalizing queue w with
  | zero => exact .refl
  | succ fuel ih =>
      cases queue with
      | cons task rest => exact (turns hwork task fuel w).trans (ih _ _)
      | nil =>
          simp only [Machine.run]
          split
          · exact .refl
          split
          case h_1 next hoperate =>
            have hnext : Run may w next := single .operate (hwork _ rfl) hoperate
            split
            · exact hnext
            · exact hnext.trans (ih _ _)
          case h_2 =>
            split
            · exact ih _ _
            split
            case h_1 next htick => exact (tick hwork htick).trans (ih _ _)
            case h_2 => exact .refl

theorem ordered (what : Order) (horder : may (.order what)) (hfree : w.operator.isFree = true) :
    Run may w (w.take what).await :=
  (single (.order what) horder (by simp [World.after, hfree])).trans (schedule hwork _ _ _ _)

end Schedule
end Run

theorem World.sleep_eq (w : World) (millis : Nat) :
    w.sleep millis = (w.take (.sleep millis)).await :=
  rfl

theorem World.broadcast_eq (w : World) (message : Outbound) :
    (w.broadcast message).2 = (w.take (.broadcast message)).await := by
  unfold World.broadcast
  simp only
  split <;> rfl

theorem World.announce_eq (w : World) : w.announce.2 = (w.take .announce).await := by
  unfold World.announce
  simp only
  split <;> rfl

theorem World.shutdown_eq (w : World) (limit pace : Nat) :
    (w.shutdown limit pace).2 = (w.take (.shutdown limit pace)).await := by
  unfold World.shutdown
  simp only
  split <;> rfl

end Rollcall.Session
