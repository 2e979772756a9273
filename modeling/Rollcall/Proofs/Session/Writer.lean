import Rollcall.Proofs.Connection.Taken
import Rollcall.Proofs.Session.Release

/-!
The writer of a connection and everyone else.

What a turn of a writer does is said once (`Conn.WriterMove`). Nobody else takes anything out of its
channel or writes to its socket (`Conn.Unwritten`), so all that others do to it is to put parcels
into the channel and, its own owner, to start it.
-/

namespace Rollcall.Session

open Connection

section Site

@[simp] theorem Instance.taken_beginBroadcast (s : Instance) (origin : Nat → Origin)
    (message : Outbound) : (s.beginBroadcast origin message).2.hub.taken = s.hub.taken :=
  Broadcast.taken_start s.hub s.now origin message

@[simp] theorem Instance.taken_settleBroadcast (s : Instance) (b : Broadcast) :
    (s.settleBroadcast b).hub.taken = s.hub.taken := by
  unfold settleBroadcast
  simp only
  split <;> exact b.taken_evict s.hub

@[simp] theorem Instance.taken_pursueBroadcast (s : Instance) (b : Broadcast) :
    (s.pursueBroadcast b).2.hub.taken = s.hub.taken := by
  unfold pursueBroadcast
  split
  · exact s.taken_settleBroadcast b
  · split
    · exact b.taken_resume s.hub s.now
    · rfl

@[simp] theorem Announcement.taken_step (a : Announcement) (s : Instance) :
    (a.step s).2.hub.taken = s.hub.taken := by
  cases a with
  | counting call =>
      simp only [step]
      split
      · split
        · rfl
        case h_2 online presence _ =>
          exact Instance.taken_beginBroadcast { s with presence } .announcement _
      · rfl
  | sending b =>
      have hpursued := s.taken_pursueBroadcast b
      simp only [step]
      split
      case h_1 s' heq => rwa [heq] at hpursued
      case h_2 b' s' heq => rwa [heq] at hpursued
      case h_3 result s' heq => rwa [heq] at hpursued

@[simp] theorem Announcement.taken_abandon (a : Announcement) (s : Instance) :
    (a.abandon s).hub.taken = s.hub.taken := by
  cases a with
  | counting call => rfl
  | sending b => exact b.taken_abandon s.hub

@[simp] theorem Conn.taken_mapSignal (s : Instance) (i : Nat) (change : CloseSignal → CloseSignal) :
    (mapSignal s i change).hub.taken = s.hub.taken := s.hub.taken_signal i change

end Site

namespace Conn

variable {i : Nat} {c c₁ : Conn} {s s₁ : Instance} {r : Conn × Instance}

/-- A step that writes nothing for a connection and takes nothing out of any channel. -/
structure Unwritten (c : Conn) (s : Instance) (r : Conn × Instance) : Prop where
  writer : r.1.writer = c.writer
  output : r.1.output = c.output
  taken : r.2.hub.taken = s.hub.taken

theorem Unwritten.of_same (htaken : s₁.hub.taken = s.hub.taken) (hrest : c.Unwritten s₁ r) :
    c.Unwritten s r := ⟨hrest.writer, hrest.output, hrest.taken.trans htaken⟩

theorem finish_unwritten (c : Conn) (i : Nat) (s : Instance) (reason : CloseReason) :
    c.Unwritten s (c.finish i s reason) := ⟨rfl, rfl, taken_mapSignal s i _⟩

theorem handle_unwritten (c : Conn) (i : Nat) (s : Instance) (frame : Frame) :
    c.Unwritten s (c.handle i s frame) := by
  have hcounted (kind : String) : ((mapSignal s i CloseSignal.abandon).mapMetrics fun m =>
      m.recordReceived kind).hub.taken = s.hub.taken := taken_mapSignal s i _
  unfold handle
  cases frame with
  | text content =>
      simp only
      split
      · exact ⟨rfl, rfl, (Send.taken_start ..).trans (hcounted "text")⟩
      · exact ⟨rfl, rfl, (Instance.taken_beginBroadcast _ (fun n => .relay n i) _).trans
          (hcounted "text")⟩
  | binary content =>
      simp only
      split
      · exact ⟨rfl, rfl, (Send.taken_start ..).trans (hcounted "binary")⟩
      · exact ⟨rfl, rfl, (Instance.taken_beginBroadcast _ (fun n => .relay n i) _).trans
          (hcounted "binary")⟩
  | ping content => exact ⟨rfl, rfl, hcounted "ping"⟩
  | pong content => exact ⟨rfl, rfl, hcounted "pong"⟩
  | close detail =>
      exact ⟨rfl, rfl, (taken_mapSignal _ i _).trans (taken_mapSignal s i CloseSignal.abandon)⟩

/-- Whichever branch an owner takes, it writes nothing itself. -/
theorem heed_unwritten {b : Branch} (hheed : c.heed i s b = some r) : c.Unwritten s r := by
  cases b with
  | signal =>
      simp only [heed] at hheed
      split at hheed
      · cases hheed
        exact (finish_unwritten c i _ .serverClosed).of_same (taken_mapSignal s i _)
      · cases hheed
  | writer =>
      simp only [heed] at hheed
      split at hheed
      · cases hheed
        exact finish_unwritten c i s .writeFailed
      · cases hheed
  | arrival =>
      simp only [heed] at hheed
      split at hheed
      case h_1 frame rest _ =>
        cases hheed
        obtain ⟨hwriter, houtput, htaken⟩ :=
          handle_unwritten { c with input := { c.input with waiting := rest } } i s frame
        exact ⟨hwriter, houtput, htaken⟩
      case h_2 =>
        cases hheed
        exact ⟨rfl, rfl, taken_mapSignal s i _⟩
      case h_3 =>
        split at hheed
        · cases hheed
          exact finish_unwritten c i s .streamEnded
        · cases hheed

theorem hear_unwritten {first : Branch} (hhear : c.hear i s first = some r) : c.Unwritten s r := by
  rcases hear_cases hhear with ⟨b, hheed⟩ | ⟨_, _, rfl⟩
  · exact heed_unwritten hheed
  · exact ⟨rfl, rfl, taken_mapSignal s i _⟩

theorem drop_unwritten (hbegun : c.owner ≠ .unborn) (i : Nat) (s : Instance) (runtime : Bool) :
    c.Unwritten s (c.drop i s runtime) := by
  have hundone (s₁ : Instance) (hsame : s₁.hub.taken = s.hub.taken) :
      ((mapSignal s₁ i CloseSignal.abandon).hub.remove i).taken = s.hub.taken :=
    (taken_mapSignal s₁ i _).trans hsame
  unfold drop
  cases howner : c.owner with
  | unborn => exact absurd howner hbegun
  | joining call => exact ⟨rfl, rfl, hundone s rfl⟩
  | announcing a => exact ⟨rfl, rfl, hundone _ (a.taken_abandon s)⟩
  | listening => exact ⟨rfl, rfl, hundone s rfl⟩
  | echoing send => exact ⟨rfl, rfl, hundone _ (send.taken_abandon s.hub)⟩
  | relaying b => exact ⟨rfl, rfl, hundone _ (b.taken_abandon s.hub)⟩
  | finishing reason => exact ⟨rfl, rfl, rfl⟩
  | parting reason deadline => exact ⟨rfl, rfl, rfl⟩
  | done reason => exact ⟨rfl, rfl, rfl⟩
  | aborted => exact ⟨rfl, rfl, rfl⟩

theorem ownerStep_unwritten {first : Branch} (hbegun : c.owner ≠ .unborn)
    (hstep : c.ownerStep i s first = some r) : c.Unwritten s r := by
  unfold ownerStep at hstep
  split at hstep
  · cases hstep
  split at hstep
  · cases hstep
    exact drop_unwritten hbegun i s true
  split at hstep
  case h_1 howner => exact absurd howner hbegun
  case h_2 call _ =>
    split at hstep
    · cases hstep
      simp only
      split <;> exact ⟨rfl, rfl, rfl⟩
    · cases hstep
  case h_3 a _ =>
    have hstepped := a.taken_step s
    split at hstep
    · cases hstep
    case h_2 a' s₁ heq =>
      cases hstep
      rw [heq] at hstepped
      exact ⟨rfl, rfl, hstepped⟩
    case h_3 result s₁ heq =>
      cases hstep
      rw [heq] at hstepped
      exact ⟨rfl, rfl, hstepped⟩
  case h_4 => exact hear_unwritten hstep
  case h_5 send _ =>
    have hresumed := send.taken_resume s.hub s.now
    simp only at hstep
    split at hstep
    · cases hstep
    · cases hstep
      exact ⟨rfl, rfl, hresumed⟩
    · cases hstep
      exact (finish_unwritten c i _ .writeFailed).of_same hresumed
  case h_6 b _ =>
    have hpursued := s.taken_pursueBroadcast b
    split at hstep
    · cases hstep
    case h_2 b' s₁ heq =>
      cases hstep
      rw [heq] at hpursued
      exact ⟨rfl, rfl, hpursued⟩
    case h_3 result s₁ heq =>
      cases hstep
      rw [heq] at hpursued
      exact ⟨rfl, rfl, hpursued⟩
  case h_7 reason _ =>
    split at hstep
    · cases hstep
      exact ⟨rfl, rfl, s.hub.taken_trySend i ⟨.farewell, .close⟩⟩
    · cases hstep
  case h_8 reason deadline _ =>
    split at hstep
    · cases hstep
      exact ⟨rfl, rfl, rfl⟩
    split at hstep
    · cases hstep
      exact ⟨rfl, rfl, rfl⟩
    · cases hstep
  · cases hstep
  · cases hstep

theorem announceEnd_unwritten (c : Conn) (s : Instance) : c.Unwritten s (c.announceEnd s, s) := by
  unfold announceEnd
  split <;> exact ⟨rfl, rfl, rfl⟩

theorem cleanupStep_unwritten (hstep : c.cleanupStep i s = some r) : c.Unwritten s r := by
  unfold cleanupStep at hstep
  split at hstep
  · cases hstep
  case h_2 registered _ =>
    have hundone : c.Unwritten s (if registered then c.deregister i s else (c, s)) := by
      split <;> exact ⟨rfl, rfl, rfl⟩
    generalize (if registered then c.deregister i s else (c, s)) = undone at hstep hundone
    obtain ⟨c₁, s₁⟩ := undone
    obtain ⟨hwriter, houtput, htaken⟩ := hundone
    simp only at hstep
    split at hstep
    · cases hstep
      exact ⟨hwriter, houtput, htaken⟩
    · cases hstep
      obtain ⟨hwriter', houtput', htaken'⟩ := announceEnd_unwritten c₁ s₁
      exact ⟨hwriter'.trans hwriter, houtput'.trans houtput, htaken'.trans htaken⟩
  case h_3 call _ =>
    split at hstep
    · cases hstep
      simp only
      split
      · obtain ⟨hwriter, houtput, _⟩ := announceEnd_unwritten (c.note .left) s
        exact ⟨hwriter, houtput, rfl⟩
      · obtain ⟨hwriter, houtput, _⟩ := announceEnd_unwritten c s
        exact ⟨hwriter, houtput, rfl⟩
    · cases hstep
  case h_4 a _ =>
    have hstepped := a.taken_step s
    split at hstep
    · cases hstep
    case h_2 a' s₁ heq =>
      cases hstep
      rw [heq] at hstepped
      exact ⟨rfl, rfl, hstepped⟩
    case h_3 result s₁ heq =>
      cases hstep
      rw [heq] at hstepped
      exact ⟨rfl, rfl, hstepped⟩
  · cases hstep

end Conn

/-- Whether a writer has taken its last parcel. -/
def Writer.hasLeft : Writer → Bool
  | .closing _ => true
  | .ended => true
  | _ => false

theorem Output.frames_setMode (o : Output) (mode : OutputMode)
    (change : Option (Nat × OutputMode)) :
    (o.setMode mode change).frames = o.frames := by
  unfold setMode
  split <;> rfl

theorem Output.frames_write (o : Output) (frame : Frame) :
    (o.write frame).frames = o.frames ++ [frame] := by
  unfold write
  simp only
  split
  · exact Output.frames_setMode ..
  · rfl

namespace Conn

/-- The next turn of the writer is its last before its work is done: its write fails or has timed
out, or it is dropped. -/
inductive BreaksOff (c : Conn) (now : Nat) : Prop where
  | dropped (hdropped : c.writerDropped = true) (hrunning : c.writer.hasEnded = false)
  | failed (message : Outbound) (deadline : Nat) (hwriter : c.writer = .writing message deadline)
      (hmode : c.output.mode = .failing)
  | timedOut (message : Outbound) (deadline : Nat) (hwriter : c.writer = .writing message deadline)
      (hmode : c.output.mode = .stalled) (hdue : deadline ≤ now)

/-- All that a turn of a writer can do. -/
inductive WriterMove (i : Nat) (c : Conn) (s : Instance) (held : Bool) :
    Conn × Instance → Prop where
  | breaksOff (hbreaks : c.BreaksOff s.now) : WriterMove i c s held (c.endWriter i s)
  | takes (parcel : Parcel) (hub : Hub) (hwriter : c.writer = .receiving)
      (hreceive : s.hub.receive i = some (parcel, hub)) :
      WriterMove i c s held
        ({ c with writer := .writing parcel.message (s.now + s.hub.sendTimeout) }, { s with hub })
  /-- Nothing is left in the channel, and nobody can put anything into it any more. -/
  | runsOut (deadline : Nat) (hwriter : c.writer = .receiving) (hreceive : s.hub.receive i = none)
      (hheld : held = false) : WriterMove i c s held ({ c with writer := .closing deadline }, s)
  | writes (message : Outbound) (limit deadline : Nat)
      (hwriter : c.writer = .writing message limit) :
      WriterMove i c s held
        ({ c with
            output := c.output.write message.frame
            writer := if message.isClose then .closing deadline else .receiving }, s)
  /-- The writer ends with its work done. -/
  | parts (deadline : Nat) (output : Output) (hwriter : c.writer = .closing deadline)
      (hframes : output.frames = c.output.frames) :
      WriterMove i c s held ({ c with output }.endWriter i s)

variable {i : Nat} {c : Conn} {s : Instance} {held : Bool} {r : Conn × Instance}

/-- Every turn of a writer is one of its moves. -/
theorem writerStep_move (hstep : c.writerStep i s held = some r) : WriterMove i c s held r := by
  unfold writerStep at hstep
  simp only at hstep
  split at hstep
  case isTrue hdropped =>
    cases hstep
    simp only [Bool.and_eq_true, Bool.not_eq_true'] at hdropped
    exact .breaksOff (.dropped hdropped.1 hdropped.2)
  split at hstep
  · cases hstep
  case h_2 hwriter =>
    split at hstep
    case h_1 parcel hub hreceive =>
      cases hstep
      exact .takes parcel hub hwriter hreceive
    case h_2 hreceive =>
      split at hstep
      · cases hstep
      case isFalse hheld =>
        cases hstep
        exact .runsOut _ hwriter hreceive (Bool.eq_false_iff.mpr hheld)
  case h_3 message limit hwriter =>
    split at hstep
    · cases hstep
      exact .writes message limit _ hwriter
    case h_2 hmode =>
      cases hstep
      exact .breaksOff (.failed message limit hwriter hmode)
    case h_3 hmode =>
      split at hstep
      case isTrue hdue =>
        cases hstep
        exact .breaksOff (.timedOut message limit hwriter hmode hdue)
      · cases hstep
  case h_4 limit hwriter =>
    split at hstep
    · split at hstep
      · cases hstep
        exact .parts limit c.output hwriter rfl
      · cases hstep
    · cases hstep
      exact .parts limit { c.output with closed := true } hwriter rfl
  · cases hstep

/-- Where it breaks off there is nothing else that the writer could do. -/
theorem BreaksOff.writerStep_eq (hbreaks : c.BreaksOff s.now) (i : Nat) (held : Bool) :
    c.writerStep i s held = some (c.endWriter i s) := by
  unfold writerStep
  cases hbreaks with
  | dropped hdropped hrunning => simp [hdropped, hrunning]
  | failed message deadline hwriter hmode => simp [hwriter, hmode]
  | timedOut message deadline hwriter hmode hdue => simp [hwriter, hmode, hdue]

/-- A writer that has ended does not move. -/
theorem WriterMove.not_ended (hmove : WriterMove i c s held r) : c.writer ≠ .ended := by
  intro hended
  cases hmove with
  | breaksOff hbreaks =>
      cases hbreaks with
      | dropped _ hrunning => simp [hended, Writer.hasEnded] at hrunning
      | failed _ _ hwriter => simp [hended] at hwriter
      | timedOut _ _ hwriter => simp [hended] at hwriter
  | takes _ _ hwriter => simp [hended] at hwriter
  | runsOut _ hwriter => simp [hended] at hwriter
  | writes _ _ _ hwriter => simp [hended] at hwriter
  | parts _ _ hwriter => simp [hended] at hwriter

/-- A writer that has left its loop writes nothing more. -/
theorem WriterMove.frames_of_left (hmove : WriterMove i c s held r)
    (hleft : c.writer.hasLeft = true) :
    r.1.output.frames = c.output.frames := by
  cases hmove with
  | breaksOff => rfl
  | takes => rfl
  | runsOut => rfl
  | writes _ _ _ hwriter => simp [hwriter, Writer.hasLeft] at hleft
  | parts _ _ _ hframes => exact hframes

/-- What everyone but a writer can do to it: its owner starts it, or is dropped before that. -/
inductive Aside (c c' : Conn) : Prop where
  | same (hwriter : c'.writer = c.writer) (hborn : c'.owner = .unborn ↔ c.owner = .unborn)
      (hkept : c.owner = .unborn → c'.writerDropped = c.writerDropped)
  | starts (howner : c.owner = .unborn) (hbegun : c'.owner ≠ .unborn)
      (hwriter : c'.writer = .receiving) (hopened : .opened ∈ c'.deeds)
  | unpolled (howner : c.owner = .unborn) (hbegun : c'.owner ≠ .unborn)
      (hwriter : c'.writer = .ended) (hdeeds : c'.deeds = c.deeds)

theorem Aside.refl (c : Conn) : c.Aside c := .same rfl Iff.rfl fun _ => rfl

theorem drop_aside (c : Conn) (i : Nat) (s : Instance) (runtime : Bool) :
    c.Aside (c.drop i s runtime).1 ∧ (c.drop i s runtime).1.output = c.output ∧
      (c.drop i s runtime).2.hub.taken = s.hub.taken := by
  by_cases hborn : c.owner = .unborn
  case pos =>
    have hdrop : c.drop i s runtime = ({ c with owner := .aborted, writer := .ended }, s) := by
      simp [drop, hborn]
    rw [hdrop]
    exact ⟨.unpolled hborn nofun rfl rfl, rfl, rfl⟩
  case neg =>
    have hunwritten := drop_unwritten hborn i s runtime
    have haborted := (c.drop_move i s runtime).aborted
    refine ⟨.same hunwritten.writer ?_ fun hunborn => absurd hunborn hborn, hunwritten.output,
      hunwritten.taken⟩
    rw [haborted]
    exact iff_of_false nofun hborn

end Conn

/-- No move of an owner leads back to before its start. -/
theorem OwnerMove.begun {i : Nat} {c : Conn} {s : Instance} {r : Conn × Instance}
    (hmove : OwnerMove i c s r) : r.1.owner ≠ .unborn := by
  cases hmove with
  | drop =>
      rw [(c.drop_move i s true).aborted]
      exact nofun
  | start => exact nofun
  | join => exact nofun
  | miss => exact nofun
  | work c' s' _ hstays =>
      intro hunborn
      simp only at hunborn
      rw [hunborn] at hstays
      cases hstays
  | finish c' s' reason _ _ howner => simp [howner]
  | part => exact nofun
  | stop => exact nofun

theorem Conn.ownerStep_aside {i : Nat} {c : Conn} {s : Instance} {first : Branch}
    {r : Conn × Instance} (hstep : c.ownerStep i s first = some r) :
    c.Aside r.1 ∧ r.1.output = c.output ∧ r.2.hub.taken = s.hub.taken := by
  have hmove := ownerStep_move hstep
  have hbegun := hmove.begun
  by_cases hborn : c.owner = .unborn
  case neg =>
    have hunwritten := ownerStep_unwritten hborn hstep
    exact ⟨.same hunwritten.writer (iff_of_false hbegun hborn) fun hunborn => absurd hunborn hborn,
      hunwritten.output, hunwritten.taken⟩
  case pos =>
    cases hmove with
    | drop => exact c.drop_aside i s true
    | start =>
        refine ⟨.starts hborn hbegun rfl ?_, rfl, s.hub.taken_add i⟩
        simp [note]
    | join call _ _ howner => simp [hborn] at howner
    | miss call _ _ howner => simp [hborn] at howner
    | work c' s' hopen => simp [hborn, Owner.stage] at hopen
    | finish c' s' reason hopen => simp [hborn, Owner.stage] at hopen
    | part s' reason deadline howner => simp [hborn] at howner
    | stop reason deadline dropped howner => simp [hborn] at howner

theorem World.operate_taken {w w' : World} (hstep : w.operate = some w') :
    w'.site.hub.taken = w.site.hub.taken := by
  unfold operate at hstep
  split at hstep
  · split at hstep
    · cases hstep
      rfl
    · cases hstep
  case h_2 a _ =>
    have hstepped := a.taken_step w.site
    split at hstep
    · cases hstep
    case h_2 a' site heq =>
      cases hstep
      rwa [heq] at hstepped
    case h_3 result site heq =>
      cases hstep
      rwa [heq] at hstepped
  case h_3 b _ =>
    have hpursued := w.site.taken_pursueBroadcast b
    split at hstep
    · cases hstep
    case h_2 b' site heq =>
      cases hstep
      rwa [heq] at hpursued
    case h_3 result site heq =>
      cases hstep
      rwa [heq] at hpursued
  · split at hstep
    · split at hstep
      all_goals
        cases hstep
        rfl
    · cases hstep
  · cases hstep

theorem World.taken_take (w : World) (what : Order) :
    (w.take what).site.hub.taken = w.site.hub.taken := by
  cases what with
  | sleep millis => rfl
  | broadcast message => exact w.site.taken_beginBroadcast .order message
  | announce => rfl
  | shutdown limit pace => exact w.site.hub.taken_closeAll

/-- Whatever happens but a turn of its own writer: a connection stays, nothing is written to its
socket and nothing is taken out of its channel. -/
theorem World.aside_after {orphans : Prop} {w w' : World} {e : Event} {i : Nat} {c : Conn}
    (hsound : w.Sound orphans) (hafter : w.after e = some w') (hother : e ≠ .turn (.writer i))
    (hconn : w.conns[i]? = some c) :
    ∃ c', w'.conns[i]? = some c' ∧ c.Aside c' ∧ c'.output.frames = c.output.frames ∧
      w'.site.hub.taken i = w.site.hub.taken i := by
  have hbound := (List.getElem?_eq_some_iff.mp hconn).1
  have hput (j : Nat) (d : Conn) (r : Conn × Instance) (hd : w.conns[j]? = some d)
      (htaken : r.2.hub.taken i = w.site.hub.taken i)
      (hown : j = i → d.Aside r.1 ∧ r.1.output = d.output) :
      ∃ c', (w.put j r).conns[i]? = some c' ∧ c.Aside c' ∧ c'.output.frames = c.output.frames ∧
        (w.put j r).site.hub.taken i = w.site.hub.taken i := by
    by_cases hij : j = i
    case pos =>
      obtain ⟨haside, houtput⟩ := hown hij
      subst hij
      obtain rfl : c = d := Option.some.inj (hconn.symm.trans hd)
      exact ⟨r.1, by simp [put, hbound], haside, by rw [houtput], htaken⟩
    case neg => exact ⟨c, by simp [put, hij, hconn], .refl c, rfl, htaken⟩
  have houtside (j : Nat) (change : Conn → Conn) (haside : ∀ d : Conn, d.Aside (change d))
      (hframes : ∀ d : Conn, (change d).output.frames = d.output.frames) :
      ∃ c', (w.mapConn j change).conns[i]? = some c' ∧ c.Aside c' ∧
        c'.output.frames = c.output.frames ∧
        (w.mapConn j change).site.hub.taken i = w.site.hub.taken i := by
    by_cases hij : j = i
    · exact ⟨change c, by simp [mapConn, hij, hconn], haside c, hframes c, rfl⟩
    · exact ⟨c, by simp [mapConn, hij, hconn], .refl c, rfl, rfl⟩
  have hsame {v : World} (hconns : v.conns = w.conns)
      (htaken : v.site.hub.taken = w.site.hub.taken) :
      ∃ c', v.conns[i]? = some c' ∧ c.Aside c' ∧ c'.output.frames = c.output.frames ∧
        v.site.hub.taken i = w.site.hub.taken i :=
    ⟨c, by rw [hconns, hconn], .refl c, rfl, congrFun htaken i⟩
  cases e with
  | turn task =>
      cases task with
      | owner j =>
          obtain ⟨d, r, hd, hstep, rfl⟩ := put_eq_of_step hafter
          obtain ⟨haside, houtput, htaken⟩ := Conn.ownerStep_aside hstep
          exact hput j d r hd (congrFun htaken i) fun _ => ⟨haside, houtput⟩
      | writer j =>
          obtain ⟨d, r, hd, hstep, rfl⟩ := put_eq_of_step hafter
          have hij : j ≠ i := fun hij => hother (by rw [hij])
          refine hput j d r hd ?_ fun hown => absurd hown hij
          cases Conn.writerStep_move hstep with
          | breaksOff => exact w.site.hub.taken_hangUp_of_ne j hij
          | takes parcel hub _ hreceive =>
              rw [(w.site.hub.receive_spec j hreceive).2, Function.update_of_ne (Ne.symm hij)]
          | runsOut => rfl
          | writes => rfl
          | parts => exact w.site.hub.taken_hangUp_of_ne j hij
      | cleanup j =>
          obtain ⟨d, r, hd, hstep, rfl⟩ := put_eq_of_step hafter
          have hunwritten := Conn.cleanupStep_unwritten hstep
          have howner := (Conn.cleanupStep_move hstep).owner_eq
          refine hput j d r hd (congrFun hunwritten.taken i) fun _ =>
            ⟨.same hunwritten.writer (by rw [howner]) fun hunborn => ?_, hunwritten.output⟩
          -- before its start there is nothing to clean up
          have hnothing := ((hsound.conns j d hd).recorded.of_unborn hunborn).1
          simp [Conn.cleanupStep, hnothing] at hstep
  | operate => exact hsame (operate_spares hafter).1 (operate_taken hafter)
  | pass millis =>
      cases hafter
      exact hsame rfl rfl
  | connect user input output =>
      cases hafter
      exact ⟨c, (List.getElem?_append_left hbound).trans hconn, .refl c, rfl,
        congrFun (w.site.hub.taken_connect user w.site.buffer) i⟩
  | arrive j arrivals =>
      cases hafter
      unfold arrive
      split
      · exact houtside j _ (fun _ => .same rfl Iff.rfl fun _ => rfl) fun _ => rfl
      · exact hsame rfl rfl
  | endInput j =>
      cases hafter
      exact houtside j _ (fun _ => .same rfl Iff.rfl fun _ => rfl) fun _ => rfl
  | setOutput j mode change =>
      cases hafter
      exact houtside j _ (fun _ => .same rfl Iff.rfl fun _ => rfl) fun d =>
        d.output.frames_setMode mode change
  | abort j =>
      cases hafter
      exact houtside j _ (fun _ => .same rfl Iff.rfl fun _ => rfl) fun _ => rfl
  | orphan j =>
      cases hafter
      unfold orphan
      split
      case h_1 d hd =>
        obtain ⟨haside, houtput, htaken⟩ := d.drop_aside j w.site false
        exact hput j d _ hd (congrFun htaken i) fun _ => ⟨haside, houtput⟩
      case h_2 => exact hsame rfl rfl
  | setGate gate =>
      cases hafter
      exact hsame rfl rfl
  | close j =>
      cases hafter
      unfold close
      split
      · exact hsame rfl (w.site.hub.taken_close j)
      · exact hsame rfl rfl
  | remove j =>
      cases hafter
      exact hsame rfl rfl
  | closeAll =>
      cases hafter
      exact hsame rfl w.site.hub.taken_closeAll
  | order what =>
      simp only [after] at hafter
      split at hafter
      · cases hafter
        exact hsame (w.spares_take what).conns (w.taken_take what)
      · cases hafter

/-- What an event is to the writer of connection `i`. -/
inductive WriterFate (i : Nat) (c : Conn) (w w' : World) (e : Event) (c' : Conn) : Prop where
  | moves (hevent : e = .turn (.writer i))
      (hmove : Conn.WriterMove i c w.site (w.isHeld i) (c', w'.site))
      (howner : c'.owner = c.owner) (hkeeps : c.Keeps c')
      (hentered : w'.site.hub.entered = w.site.hub.entered)
  | aside (haside : c.Aside c') (hframes : c'.output.frames = c.output.frames)
      (htaken : w'.site.hub.taken i = w.site.hub.taken i)

/-- At every event the writer of a connection moves, or it meets what others do. -/
theorem World.writer_fate {orphans : Prop} {w w' : World} {e : Event} {i : Nat} {c : Conn}
    (hsound : w.Sound orphans) (hafter : w.after e = some w') (hconn : w.conns[i]? = some c) :
    ∃ c', w'.conns[i]? = some c' ∧ WriterFate i c w w' e c' := by
  by_cases hown : e = .turn (.writer i)
  case pos =>
    subst hown
    obtain ⟨r, hstep, rfl, hconn'⟩ := put_eq_of_turn hconn hafter
    obtain ⟨howner, hkeeps, _⟩ := Conn.writerStep_spares hstep
    exact ⟨r.1, hconn', .moves rfl (Conn.writerStep_move hstep) howner hkeeps
      (Conn.writerStep_silent hstep).1.entered⟩
  case neg =>
    obtain ⟨c', hconn', haside, hframes, htaken⟩ := aside_after hsound hafter hown hconn
    exact ⟨c', hconn', .aside haside hframes htaken⟩

end Rollcall.Session
