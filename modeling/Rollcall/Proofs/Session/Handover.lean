import Rollcall.Proofs.Session.Writing

/-!
What the sockets are given.

At the end of every run the frames on the socket of a connection are a beginning of what entered its
channel, and a close comes last. A writer that breaks off, because a write fails or has timed out or
because it is dropped, hands over nothing more. One that does not break off has handed over
everything through the first close by the time it leaves its loop, and until then it waits for more
or gets on.
-/

namespace Rollcall.Session

open Connection

def World.frames (w : World) (i : Nat) : List Frame :=
  (w.conns[i]?.map fun c => c.output.frames).getD []

/-- Whether everything through the first close was handed over. -/
def World.Complete (w : World) (i : Nat) : Prop :=
  w.frames i = (throughClose (w.site.hub.entered i)).map Parcel.frame

/-- Whether an event is the turn at which the writer of connection `i` breaks off. -/
def World.BreaksOff (w : World) (i : Nat) (e : Event) : Prop :=
  e = .turn (.writer i) ∧ ∃ c, w.conns[i]? = some c ∧ c.BreaksOff w.site.now

/-- Runs in which the writer of connection `i` does not break off. -/
inductive Unbroken (may : Event → Prop) (i : Nat) (w : World) : World → Prop where
  | refl : Unbroken may i w w
  | step {v v' : World} (e : Event) (unbroken : Unbroken may i w v) (hmay : may e)
      (hgoes : ¬ v.BreaksOff i e) (hafter : v.after e = some v') : Unbroken may i w v'

namespace Unbroken

variable {may : Event → Prop} {i : Nat} {u v w : World}

theorem run (unbroken : Unbroken may i v w) : Run may v w := by
  induction unbroken with
  | refl => exact .refl
  | step e _ hmay _ hafter ih => exact .step e ih hmay hafter

theorem trans (huv : Unbroken may i u v) (hvw : Unbroken may i v w) : Unbroken may i u w := by
  induction hvw with
  | refl => exact huv
  | step e _ hmay hgoes hafter ih => exact .step e ih hmay hgoes hafter

end Unbroken

namespace World

variable {orphans : Prop} {w w' : World} {e : Event} {i : Nat} {c : Conn}

theorem frames_conn (hconn : w.conns[i]? = some c) : w.frames i = c.output.frames := by
  simp [frames, hconn]

def Staged (w : World) : Prop :=
  ∀ (i : Nat) (c : Conn), w.conns[i]? = some c → c.Stage w.site.hub i

/-- Channels only grow at their end. -/
theorem Regular.entered_append (hregular : w.Regular orphans)
    (hafter : w.after e = some w') (i : Nat) :
    ∃ new, w'.site.hub.entered i = w.site.hub.entered i ++ new :=
  (hregular.traffic hafter).entered_append hregular.posted i

/-- A new connection has received nothing. -/
theorem Sound.taken_of_new (hsound : w.Sound orphans) (hnew : w.conns[i]? = none) :
    w.site.hub.taken i = 0 := by
  have hunknown : w.site.hub.peers[i]? = none := by
    rw [List.getElem?_eq_none_iff, hsound.sizes]
    exact List.getElem?_eq_none_iff.mp hnew
  simp [Hub.taken, hunknown]

/-- Every event leaves each writer in one of the phases. -/
theorem Staged.of_after (hstaged : w.Staged) (hregular : w.Regular orphans)
    (hfresh : e.isFresh = true) (hafter : w.after e = some w') : w'.Staged := by
  intro i c' hc'
  cases hconn : w.conns[i]? with
  | none =>
      obtain ⟨user, input, output, rfl, rfl⟩ := (after_advance hafter).connects hconn hc'
      cases hafter
      refine .unborn rfl rfl rfl (List.isEmpty_iff.mp hfresh) ?_
      exact (congrFun (w.site.hub.taken_connect user w.site.buffer) i).trans
        (hregular.sound.taken_of_new hconn)
  | some c =>
      have hstage := hstaged i c hconn
      obtain ⟨d, hd, hfate⟩ := writer_fate hregular.sound hafter hconn
      obtain rfl : d = c' := Option.some.inj (hd.symm.trans hc')
      cases hfate with
      | moves _ hmove howner _ hentered => exact hstage.of_move hmove howner hentered
      | aside haside hframes htaken =>
          obtain ⟨new, hentered⟩ := hregular.entered_append hafter i
          exact hstage.of_aside haside hframes htaken hentered

/-- The writer of connection `i` has ended, with these frames handed over. -/
def Ended (w : World) (i : Nat) (frames : List Frame) : Prop :=
  ∃ c, w.conns[i]? = some c ∧ c.owner ≠ .unborn ∧ c.writer = .ended ∧ c.output.frames = frames

/-- A writer that has ended hands over nothing more. -/
theorem Ended.of_after {frames : List Frame} (hended : w.Ended i frames) (hsound : w.Sound orphans)
    (hafter : w.after e = some w') : w'.Ended i frames := by
  obtain ⟨c, hconn, hbegun, hwriter, hframes⟩ := hended
  obtain ⟨d, hd, hfate⟩ := writer_fate hsound hafter hconn
  cases hfate with
  | moves _ hmove => exact absurd hwriter hmove.not_ended
  | aside haside hsame =>
      cases haside with
      | same hwriter' hborn =>
          exact ⟨d, hd, mt hborn.mp hbegun, hwriter'.trans hwriter, hsame.trans hframes⟩
      | starts howner => exact absurd howner hbegun
      | unpolled howner => exact absurd howner hbegun

/-- With the turn at which it breaks off a writer has ended. -/
theorem Staged.ended_of_breaksOff (hstaged : w.Staged) (hbreaks : w.BreaksOff i e)
    (hafter : w.after e = some w') : w'.Ended i (w.frames i) := by
  obtain ⟨rfl, c, hconn, hbreaks⟩ := hbreaks
  obtain ⟨r, hstep, rfl, hconn'⟩ := put_eq_of_turn hconn hafter
  rw [hbreaks.writerStep_eq] at hstep
  cases hstep
  exact ⟨_, hconn', (hstaged i c hconn).begun_of_breaksOff hbreaks, rfl, (frames_conn hconn).symm⟩

/-- Everything through the first close was handed over, and without a close nobody can send any
more. -/
def Settled (w : World) (i : Nat) : Prop :=
  w.Complete i ∧
    ((∃ parcel ∈ w.site.hub.entered i, parcel.message.isClose = true) ∨ w.isHeld i = false)

/-- What is settled stays so as long as no frame is handed over. -/
theorem Settled.of_after (hsettled : w.Settled i) (hregular : w.Regular orphans)
    (hafter : w.after e = some w') (hconn : w.conns[i]? = some c) (hopened : .opened ∈ c.deeds)
    (hframes : w'.frames i = w.frames i) : w'.Settled i := by
  obtain ⟨hcomplete, hlast⟩ := hsettled
  rcases hlast with ⟨parcel, hin, hclose⟩ | hreleased
  · -- what comes after a close is not to be written
    obtain ⟨new, hentered⟩ := hregular.entered_append hafter i
    refine ⟨?_, .inl ⟨parcel, hentered ▸ List.mem_append_left new hin, hclose⟩⟩
    rw [Complete, hframes, hcomplete, hentered, throughClose_append_of_close ⟨parcel, hin, hclose⟩]
  · have hsame := hregular.entered_of_released hafter hconn hreleased
    refine ⟨?_, .inr (hregular.not_isHeld hafter hconn hopened hreleased)⟩
    rw [Complete, hframes, hcomplete, hsame]

/-- Whether a writer that has left its loop has left nothing behind. -/
def Clears (w : World) (i : Nat) : Prop :=
  ∀ c, w.conns[i]? = some c → .opened ∈ c.deeds → c.writer.hasLeft = true → w.Settled i

theorem Clears.of_after (hclears : w.Clears i) (hregular : w.Regular orphans) (hstaged : w.Staged)
    (hgoes : ¬ w.BreaksOff i e) (hafter : w.after e = some w') : w'.Clears i := by
  intro c' hc' hopened hleft
  cases hconn : w.conns[i]? with
  | none =>
      obtain ⟨user, input, output, _, rfl⟩ := (after_advance hafter).connects hconn hc'
      cases hleft
  | some c =>
      have hstage := hstaged i c hconn
      have hrecorded := (hregular.sound.conns i c hconn).recorded
      obtain ⟨d, hd, hwriterFate⟩ := writer_fate hregular.sound hafter hconn
      obtain rfl : d = c' := Option.some.inj (hd.symm.trans hc')
      cases hwriterFate with
      | moves hevent hmove _ hkeeps hentered =>
          rw [hkeeps.deeds] at hopened
          by_cases hearlier : c.writer.hasLeft = true
          case pos =>
            refine (hclears c hconn hopened hearlier).of_after hregular hafter hconn hopened ?_
            rw [frames_conn hconn, frames_conn hd, hmove.frames_of_left hearlier]
          case neg =>
            have hgoes : ¬ c.BreaksOff w.site.now :=
              fun hbreaks => hgoes ⟨hevent, c, hconn, hbreaks⟩
            obtain ⟨hframes, hlast⟩ :=
              hstage.leaves hmove hgoes (Bool.eq_false_iff.mpr hearlier) hleft
            refine ⟨by rw [Complete, frames_conn hd, hentered, hframes], ?_⟩
            rw [hentered]
            exact hlast.imp_right (hregular.not_isHeld hafter hconn hopened)
      | aside haside hframes =>
          cases haside with
          | same hwriter =>
              rw [hwriter] at hleft
              have hbegun := hstage.begun fun hunborn => by simp [hunborn, Writer.hasLeft] at hleft
              obtain ⟨d', hd', hfate⟩ := (after_advance hafter).fate hconn
              obtain rfl : d' = d := Option.some.inj (hd'.symm.trans hd)
              have hopened := hfate.opened hrecorded hbegun hopened
              refine (hclears c hconn hopened hleft).of_after hregular hafter hconn hopened ?_
              rw [frames_conn hconn, frames_conn hd, hframes]
          | starts _ _ hwriter => simp [hwriter, Writer.hasLeft] at hleft
          | unpolled howner _ _ hdeeds =>
              rw [hdeeds, (hrecorded.of_unborn howner).2.2] at hopened
              cases hopened

/-- A turn of the writer at which it does not break off. -/
theorem unbroken_turn {r : Conn × Instance} (hconn : w.conns[i]? = some c)
    (hstep : c.writerStep i w.site (w.isHeld i) = some r) (hgoes : ¬ c.BreaksOff w.site.now) :
    w.after (.turn (.writer i)) = some (w.put i r) ∧ (w.put i r).conns[i]? = some r.1 ∧
      Unbroken (fun e => e.drives i) i w (w.put i r) := by
  have hafter : w.after (.turn (.writer i)) = some (w.put i r) := by
    simp [after, step, hconn, hstep]
  refine ⟨hafter, by simp [put, (List.getElem?_eq_some_iff.mp hconn).1], ?_⟩
  refine .step (.turn (.writer i)) .refl (by simp [Event.drives]) ?_ hafter
  rintro ⟨_, d, hd, hbreaks⟩
  exact hgoes (Option.some.inj (hconn.symm.trans hd) ▸ hbreaks)

/-- A writer in its loop, with nothing else going on but the clock, comes to where everything was
handed over or it breaks off. -/
theorem Staged.exists_complete (hstaged : w.Staged) (hregular : w.Regular True)
    (hconn : w.conns[i]? = some c) (hbegun : c.owner ≠ .unborn)
    (hinside : c.writer.hasLeft = false) :
    ∃ v, Unbroken (fun e => e.drives i) i w v ∧ v.site.hub.entered i = w.site.hub.entered i ∧
      (v.Complete i ∨ v.BreaksOff i (.turn (.writer i))) := by
  induction hahead : c.ahead w.site.hub i using Nat.strong_induction_on generalizing w c with
  | _ n ih =>
      have hstage := hstaged i c hconn
      cases hstage.outlook hbegun hinside (w.isHeld i) with
      | whole hframes => exact ⟨w, .refl, rfl, .inl ((frames_conn hconn).trans hframes)⟩
      | breaksOff hbreaks => exact ⟨w, .refl, rfl, .inr ⟨rfl, c, hconn, hbreaks⟩⟩
      | stalls message deadline hwriter hmode hearly =>
          refine ⟨_, .step (.pass (deadline - w.site.now)) .refl rfl
            (fun hbreaks => nomatch hbreaks.1) rfl, rfl,
            .inr ⟨rfl, c, hconn, .timedOut message deadline hwriter hmode ?_⟩⟩
          simp only [machine]
          omega
      | getsOn r hstep hgoes hless =>
          obtain ⟨hafter, hconn', hturn⟩ := unbroken_turn hconn hstep hgoes
          obtain ⟨hsilent, howner, _⟩ := Conn.writerStep_silent hstep
          have hentered : (w.put i r).site.hub.entered = w.site.hub.entered := hsilent.entered
          by_cases hleft : r.1.writer.hasLeft = true
          case pos =>
            obtain ⟨hframes, _⟩ := hstage.leaves (Conn.writerStep_move hstep) hgoes hinside hleft
            refine ⟨_, hturn, congrFun hentered i, .inl ?_⟩
            rw [Complete, frames_conn hconn', hentered, hframes]
          case neg =>
            have hless := hless.resolve_left hleft
            have hregular' := hregular.of_after (fun _ _ => trivial) hafter
            obtain ⟨v, hlater, hsame, hends⟩ :=
              ih _ (hahead ▸ hless) (hstaged.of_after hregular rfl hafter)
              hregular' hconn' (howner ▸ hbegun) (Bool.eq_false_iff.mpr hleft) rfl
            exact ⟨v, hturn.trans hlater, hsame.trans (congrFun hentered i), hends⟩

/-- What connection `i` hands over to its socket in a run from `start`. -/
structure WritesInOrder (start : World) (i : Nat) (w : World) : Prop where
  /-- The frames are what entered the channel, unaltered and in its order. -/
  inOrder : w.frames i <+: (w.site.hub.entered i).map Parcel.frame
  /-- Nothing comes after a close. -/
  closeLast : ∀ detail, .close detail ∉ (w.frames i).dropLast
  /-- Nothing comes after the turn at which the writer breaks off. -/
  brokenOff : ∀ e u, w.BreaksOff i e → w.after e = some u →
    ∀ (later : Event → Prop) (v : World), Run later u v → v.frames i = w.frames i
  /-- A writer that has left its loop and did not break off has handed over everything through the
  first close, or everything there is, and nobody can send any more. -/
  complete : ∀ c, w.conns[i]? = some c → .opened ∈ c.deeds →
    Unbroken (fun e => e.isFresh) i start w →
    c.writer.hasLeft = true → w.Settled i
  /-- And every writer that was started gets there, with nothing else going on but the clock, or to
  where it waits for more, unless it breaks off. -/
  getsOn : ∀ c, w.conns[i]? = some c → .opened ∈ c.deeds → Unbroken (fun e => e.isFresh) i start w →
    ∃ v, Unbroken (fun e => e.drives i) i w v ∧ v.site.hub.entered i = w.site.hub.entered i ∧
      (v.Complete i ∨ v.BreaksOff i (.turn (.writer i)))

theorem Staged.frames_isPrefix (hstaged : w.Staged) (i : Nat) :
    w.frames i <+: (throughClose (w.site.hub.entered i)).map Parcel.frame := by
  unfold frames
  cases hconn : w.conns[i]? with
  | none => exact List.nil_prefix
  | some c => exact (hstaged i c hconn).isPrefix

end World

section Runs

variable {policy : MessagePolicy} {buffer sendTimeout : Nat} {w : World} {i : Nat}

theorem Run.staged (run : Run (fun e => e.isFresh)
    (World.create (Instance.create policy buffer sendTimeout)) w) : w.Regular True ∧ w.Staged := by
  have hstep (e : Event) (u u' : World) (hfresh : e.isFresh = true) (hafter : u.after e = some u')
      (hbefore : u.Regular True ∧ u.Staged) : u'.Regular True ∧ u'.Staged :=
    ⟨hbefore.1.of_after (fun _ _ => trivial) hafter, hbefore.2.of_after hbefore.1 hfresh hafter⟩
  refine run.invariant hstep ⟨World.regular_create True policy buffer sendTimeout, ?_⟩
  intro i c hconn
  simp [World.create] at hconn

/-- A connection that has ended is handed nothing more. -/
theorem Run.frames_of_ended {may : Event → Prop} {v : World} {frames : List Frame}
    (run : Run may w v)
    (hregular : w.Regular True) (hended : w.Ended i frames) : v.frames i = frames := by
  have hstep (e : Event) (u u' : World) (_ : may e) (hafter : u.after e = some u')
      (hbefore : u.Regular True ∧ u.Ended i frames) : u'.Regular True ∧ u'.Ended i frames :=
    ⟨hbefore.1.of_after (fun _ _ => trivial) hafter, hbefore.2.of_after hbefore.1.sound hafter⟩
  obtain ⟨_, c, hconn, _, _, hframes⟩ := run.invariant hstep ⟨hregular, hended⟩
  rw [World.frames_conn hconn, hframes]

/-- A writer that has not ended did not break off. -/
theorem Run.unbroken (run : Run (fun e => e.isFresh)
    (World.create (Instance.create policy buffer sendTimeout)) w)
    (hrunning : ∀ c, w.conns[i]? = some c → c.writer ≠ .ended) :
    Unbroken (fun e => e.isFresh) i
      (World.create (Instance.create policy buffer sendTimeout)) w := by
  induction run with
  | refl => exact .refl
  | @step v v' e run hfresh hafter ih =>
      obtain ⟨hregular, hstaged⟩ := run.staged
      have hnever {frames : List Frame} (hended : v'.Ended i frames) : False := by
        obtain ⟨c, hconn, _, hwriter, _⟩ := hended
        exact hrunning c hconn hwriter
      refine .step e (ih fun c hconn hwriter => ?_) hfresh (fun hbreaks => ?_) hafter
      · have hbegun := (hstaged i c hconn).begun (by simp [hwriter])
        have hended : v.Ended i c.output.frames := ⟨c, hconn, hbegun, hwriter, rfl⟩
        exact hnever (hended.of_after hregular.sound hafter)
      · exact hnever (hstaged.ended_of_breaksOff hbreaks hafter)

theorem Unbroken.clears
    (unbroken : Unbroken (fun e => e.isFresh) i
      (World.create (Instance.create policy buffer sendTimeout)) w) : w.Clears i := by
  induction unbroken with
  | refl =>
      intro c hconn
      simp [World.create] at hconn
  | step e unbroken _ hgoes hafter ih =>
      obtain ⟨hregular, hstaged⟩ := unbroken.run.staged
      exact ih.of_after hregular hstaged hgoes hafter

/-- At the end of every run a socket was given a beginning of what entered the channel, with a close
last and nothing after the writer has broken off. Where it did not break off it was given everything
through the first close, or everything that was sent before the last handle was let go of, or will
be. -/
theorem Run.writes_in_order (run : Run (fun e => e.isFresh)
    (World.create (Instance.create policy buffer sendTimeout)) w) (i : Nat) :
    World.WritesInOrder (World.create (Instance.create policy buffer sendTimeout)) i w := by
  obtain ⟨hregular, hstaged⟩ := run.staged
  have hbeginning := hstaged.frames_isPrefix i
  constructor
  case inOrder => exact hbeginning.trans ((throughClose_isPrefix _).map Parcel.frame)
  case closeLast => exact not_close_of_isPrefix hbeginning
  case brokenOff =>
    intro e u hbreaks hafter later v hlater
    have hregular' := hregular.of_after (fun _ _ => trivial) hafter
    exact hlater.frames_of_ended hregular' (hstaged.ended_of_breaksOff hbreaks hafter)
  case complete =>
    intro c hconn hopened hunbroken hleft
    exact hunbroken.clears c hconn hopened hleft
  case getsOn =>
    intro c hconn hopened hunbroken
    by_cases hleft : c.writer.hasLeft = true
    case pos => exact ⟨w, .refl, rfl, .inl (hunbroken.clears c hconn hopened hleft).1⟩
    case neg =>
      have hbegun : c.owner ≠ .unborn := by
        intro hunborn
        rw [((hregular.sound.conns i c hconn).recorded.of_unborn hunborn).2.2] at hopened
        cases hopened
      exact hstaged.exists_complete hregular hconn hbegun (Bool.eq_false_iff.mpr hleft)

end Runs

/-- Alice is sent a close between two texts. Bob takes nothing, and his first write times out. -/
def handoverEvents : List Event :=
  [.connect "alice" ⟨[], false⟩ (.create .accepting none),
    .connect "bob" ⟨[], false⟩ (.create .stalled none),
    .turn (.owner 0 .signal), .turn (.owner 1 .signal),
    .order (.broadcast (.text "first")), .operate, .order (.broadcast .close), .operate,
    .order (.broadcast (.text "late")), .operate,
    .turn (.writer 0), .turn (.writer 0), .turn (.writer 0), .turn (.writer 0), .turn (.writer 1),
    .pass 2000]

theorem writes_in_order_to_close :
    ∃ w, (World.create (Instance.create .echo 8 2000)).play handoverEvents = some w ∧
      w.frames 0 = [.text "first", Outbound.close.frame] ∧ (w.site.hub.entered 0).length = 3 ∧
      w.Settled 0 ∧ w.BreaksOff 1 (.turn (.writer 1)) ∧
      ∀ u, w.after (.turn (.writer 1)) = some u → ∀ v, Run (fun _ => True) u v →
        v.frames 1 = [] := by
  have hplayed : ((World.create (Instance.create .echo 8 2000)).play handoverEvents).any (fun w =>
      w.frames 0 == [.text "first", Outbound.close.frame] && (w.site.hub.entered 0).length == 3 &&
        w.frames 1 == [] &&
        (w.conns[0]?.any fun c => c.deeds.contains .opened && c.writer.hasLeft &&
          !c.writer.hasEnded) &&
        w.conns[1]?.any fun c => c.output.mode == .stalled &&
          c.writer.inHand == 1 && c.writer.deadlines.all (· ≤ w.site.now)) := by
    decide
  obtain ⟨w, hplay, hthen⟩ := (Option.any_eq_true _ _).mp hplayed
  simp only [Bool.and_eq_true, beq_iff_eq] at hthen
  obtain ⟨⟨⟨⟨hframes, hlength⟩, hnothing⟩, halice⟩, hbob⟩ := hthen
  obtain ⟨alice, hconn, hleft⟩ := (Option.any_eq_true _ _).mp halice
  obtain ⟨bob, hconn', hstalled⟩ := (Option.any_eq_true _ _).mp hbob
  simp only [Bool.and_eq_true, List.contains_iff_mem, Bool.not_eq_true'] at hleft
  simp only [Bool.and_eq_true, beq_iff_eq] at hstalled
  have run : Run (fun e => e.isFresh) (World.create (Instance.create .echo 8 2000)) w :=
    .of_play (by decide) hplay
  have hunbroken :
      Unbroken (fun e => e.isFresh) 0 (World.create (Instance.create .echo 8 2000)) w := by
    refine run.unbroken fun c hc hended => ?_
    obtain rfl : alice = c := Option.some.inj (hconn.symm.trans hc)
    simp [hended, Writer.hasEnded] at hleft
  have hbreaks : w.BreaksOff 1 (.turn (.writer 1)) := by
    refine ⟨rfl, bob, hconn', ?_⟩
    cases hwriter : bob.writer with
    | writing message deadline =>
        exact .timedOut message deadline hwriter hstalled.1.1
          (by simpa [hwriter, Writer.deadlines] using hstalled.2)
    | _ => simp [hwriter, Writer.inHand] at hstalled
  refine ⟨w, hplay, hframes, hlength, ?_, hbreaks, fun u hafter v hlater => ?_⟩
  · exact (run.writes_in_order 0).complete alice hconn hleft.1.1 hunbroken hleft.1.2
  · rw [(run.writes_in_order 1).brokenOff _ u hbreaks hafter _ v hlater, hnothing]

end Rollcall.Session
