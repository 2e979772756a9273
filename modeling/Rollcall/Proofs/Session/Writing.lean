import Rollcall.Proofs.Session.Writer

/-!
What a writer has handed over.

Everything that enters the channel of a connection is to be written in the order in which it
entered, up to and including the first close (`throughClose`). In every phase of the writer the
frames that the socket was given are a beginning of that (`Conn.Stage`): a turn of the writer leads
from stage to stage (`Conn.Stage.of_move`), and what everyone else does leaves the stage as it is
(`Conn.Stage.of_aside`).
-/

namespace Rollcall.Connection

def Parcel.frame (parcel : Parcel) : Frame := parcel.message.frame

/-- All up to and including the first close, or all if there is none. -/
def throughClose : List Parcel → List Parcel
  | [] => []
  | parcel :: rest => if parcel.message.isClose then [parcel] else parcel :: throughClose rest

theorem throughClose_isPrefix (parcels : List Parcel) : throughClose parcels <+: parcels := by
  induction parcels with
  | nil => exact List.prefix_refl []
  | cons parcel rest ih =>
      simp only [throughClose]
      split
      · exact ⟨rest, rfl⟩
      · exact (List.prefix_cons_inj parcel).mpr ih

/-- What holds no close is to be written whole, and then the rest. -/
theorem throughClose_append_of_open {front : List Parcel}
    (hopen : ∀ parcel ∈ front, parcel.message.isClose = false) (rest : List Parcel) :
    throughClose (front ++ rest) = front ++ throughClose rest := by
  induction front with
  | nil => rfl
  | cons parcel front ih =>
      have hfirst := hopen parcel List.mem_cons_self
      have hothers := ih fun other hother => hopen other (List.mem_cons_of_mem parcel hother)
      simp [throughClose, hfirst, hothers]

/-- What comes after a close is not to be written. -/
theorem throughClose_append_of_close {front : List Parcel}
    (hclose : ∃ parcel ∈ front, parcel.message.isClose = true) (rest : List Parcel) :
    throughClose (front ++ rest) = throughClose front := by
  induction front with
  | nil => simp at hclose
  | cons parcel front ih =>
      by_cases hfirst : parcel.message.isClose = true
      case pos => simp [throughClose, hfirst]
      case neg =>
        have hlater : ∃ parcel ∈ front, parcel.message.isClose = true := by
          obtain ⟨other, hother, hother'⟩ := hclose
          rcases List.mem_cons.mp hother with rfl | hin
          · exact absurd hother' hfirst
          · exact ⟨other, hin, hother'⟩
        simp [throughClose, hfirst, ih hlater]

theorem throughClose_mono (front rest : List Parcel) :
    throughClose front <+: throughClose (front ++ rest) := by
  by_cases hclose : ∃ parcel ∈ front, parcel.message.isClose = true
  case pos => rw [throughClose_append_of_close hclose]
  case neg =>
    have hopen (parcel : Parcel) (hin : parcel ∈ front) : parcel.message.isClose = false :=
      Bool.eq_false_iff.mpr fun hisClose => hclose ⟨parcel, hin, hisClose⟩
    rw [throughClose_append_of_open hopen]
    exact (throughClose_isPrefix front).trans (List.prefix_append front _)

/-- A close comes last. -/
theorem isClose_of_mem_dropLast {parcels : List Parcel} {parcel : Parcel}
    (hin : parcel ∈ (throughClose parcels).dropLast) : parcel.message.isClose = false := by
  induction parcels with
  | nil => simp [throughClose] at hin
  | cons first rest ih =>
      simp only [throughClose] at hin
      split at hin
      case isTrue => simp at hin
      case isFalse hopen =>
        cases hrest : throughClose rest with
        | nil => simp [hrest] at hin
        | cons second others =>
            rw [hrest, List.dropLast_cons_cons] at hin
            rcases List.mem_cons.mp hin with rfl | hlater
            · exact Bool.eq_false_iff.mpr hopen
            · exact ih (hrest ▸ hlater)

/-- Only a close is written as a close frame. -/
theorem Parcel.isClose_of_frame {parcel : Parcel} {detail : Option (Nat × String)}
    (hframe : parcel.frame = .close detail) : parcel.message.isClose = true := by
  unfold frame Outbound.frame at hframe
  split at hframe
  · cases hframe
  · cases hframe
  case h_3 hclose => rw [hclose]; rfl

/-- So in every beginning of what is to be written. -/
theorem not_close_of_isPrefix {frames : List Frame} {parcels : List Parcel}
    (hbeginning : frames <+: (throughClose parcels).map Parcel.frame)
    (detail : Option (Nat × String)) :
    .close detail ∉ frames.dropLast := by
  intro hin
  have hshorter : frames.dropLast <+: ((throughClose parcels).map Parcel.frame).dropLast := by
    rw [List.dropLast_eq_take, List.dropLast_eq_take]
    have hlength := hbeginning.length_le
    exact (hbeginning.take _).trans (List.take_prefix_take_left (by omega))
  rw [← List.map_dropLast] at hshorter
  obtain ⟨parcel, hearlier, hframe⟩ := List.mem_map.mp (hshorter.subset hin)
  have hclose := Parcel.isClose_of_frame hframe
  rw [isClose_of_mem_dropLast hearlier] at hclose
  cases hclose

end Rollcall.Connection

namespace Rollcall.Session

open Connection

namespace Event

/-- Whether a client that connects does so on a socket that was not written to. -/
def isFresh : Event → Bool
  | .connect _ _ output => output.frames.isEmpty
  | _ => true

def drives (i : Nat) : Event → Bool
  | .turn (.writer j) => i == j
  | .pass _ => true
  | _ => false

end Event

/-- How many parcels a writer has taken and not written yet. -/
def Writer.inHand : Writer → Nat
  | .writing .. => 1
  | _ => 0

namespace Conn

/-- The first `n` parcels of the channel were handed over, and none of them is a close. -/
structure Handed (c : Conn) (h : Hub) (i n : Nat) : Prop where
  frames : c.output.frames = ((h.entered i).take n).map Parcel.frame
  unclosed : ∀ parcel ∈ (h.entered i).take n, parcel.message.isClose = false
  bound : n ≤ (h.entered i).length

/-- What was handed over in each phase of a writer. -/
inductive Stage (c : Conn) (h : Hub) (i : Nat) : Prop where
  | unborn (howner : c.owner = .unborn) (hwriter : c.writer = .unborn)
      (hkept : c.writerDropped = false) (hframes : c.output.frames = []) (htaken : h.taken i = 0)
  | receiving (hbegun : c.owner ≠ .unborn) (hwriter : c.writer = .receiving)
      (hhanded : c.Handed h i (h.taken i))
  /-- One parcel was taken and not handed over yet. -/
  | writing (parcel : Parcel) (deadline n : Nat) (hbegun : c.owner ≠ .unborn)
      (hwriter : c.writer = .writing parcel.message deadline)
      (hparcel : (h.entered i)[n]? = some parcel) (htaken : h.taken i = n + 1)
      (hhanded : c.Handed h i n)
  | left (hbegun : c.owner ≠ .unborn) (hwriter : c.writer.hasLeft = true)
      (hframes : c.output.frames <+: (throughClose (h.entered i)).map Parcel.frame)

variable {c c' : Conn} {h h' : Hub} {i n : Nat} {s : Instance} {held : Bool} {r : Conn × Instance}

/-- What enters a channel later leaves what was handed over the first part of it. -/
theorem Handed.grow (hhanded : c.Handed h i n) {new : List Parcel}
    (hentered : h'.entered i = h.entered i ++ new) (hframes : c'.output.frames = c.output.frames) :
    c'.Handed h' i n := by
  have hsame : (h'.entered i).take n = (h.entered i).take n := by
    rw [hentered, List.take_append_of_le_length hhanded.bound]
  constructor
  case frames => rw [hframes, hsame, hhanded.frames]
  case unclosed => rw [hsame]; exact hhanded.unclosed
  case bound =>
    have hbound := hhanded.bound
    rw [hentered, List.length_append]
    omega

theorem Handed.throughClose_eq (hhanded : c.Handed h i n) :
    throughClose (h.entered i) = (h.entered i).take n ++ throughClose ((h.entered i).drop n) := by
  have hsplit := throughClose_append_of_open hhanded.unclosed ((h.entered i).drop n)
  rwa [List.take_append_drop] at hsplit

theorem Handed.isPrefix (hhanded : c.Handed h i n) :
    c.output.frames <+: (throughClose (h.entered i)).map Parcel.frame := by
  rw [hhanded.frames, hhanded.throughClose_eq, List.map_append]
  exact List.prefix_append _ _

/-- All was handed over where nothing is left to take. -/
theorem Handed.whole (hhanded : c.Handed h i n) (hlength : (h.entered i).length ≤ n) :
    c.output.frames = (h.entered i).map Parcel.frame ∧
      throughClose (h.entered i) = h.entered i := by
  have hall : (h.entered i).take n = h.entered i := List.take_of_length_le hlength
  refine ⟨by rw [hhanded.frames, hall], ?_⟩
  rw [hhanded.throughClose_eq, hall, List.drop_of_length_le hlength]
  simp [throughClose]

/-- The next parcel is handed over. -/
theorem Handed.writes (hhanded : c.Handed h i n) {parcel : Parcel}
    (hparcel : (h.entered i)[n]? = some parcel)
    (hframes : c'.output.frames = c.output.frames ++ [parcel.frame]) :
    c'.output.frames = ((h.entered i).take (n + 1)).map Parcel.frame := by
  rw [hframes, hhanded.frames, List.take_add_one, hparcel, List.map_append]
  rfl

theorem Handed.succ (hhanded : c.Handed h i n) {parcel : Parcel}
    (hparcel : (h.entered i)[n]? = some parcel) (hopen : parcel.message.isClose = false)
    (hframes : c'.output.frames = c.output.frames ++ [parcel.frame]) : c'.Handed h i (n + 1) := by
  constructor
  case frames => exact hhanded.writes hparcel hframes
  case unclosed =>
    intro other hother
    rw [List.take_add_one, hparcel] at hother
    rcases List.mem_append.mp hother with hearlier | hlast
    · exact hhanded.unclosed other hearlier
    · obtain rfl : other = parcel := by simpa using hlast
      exact hopen
  case bound => exact (List.getElem?_eq_some_iff.mp hparcel).1

/-- With a close all is handed over that is to be written. -/
theorem Handed.closes (hhanded : c.Handed h i n) {parcel : Parcel}
    (hparcel : (h.entered i)[n]? = some parcel) (hclose : parcel.message.isClose = true)
    (hframes : c'.output.frames = c.output.frames ++ [parcel.frame]) :
    c'.output.frames = (throughClose (h.entered i)).map Parcel.frame := by
  obtain ⟨hbound, hget⟩ := List.getElem?_eq_some_iff.mp hparcel
  have hfirst : throughClose ((h.entered i).drop n) = [parcel] := by
    rw [List.drop_eq_getElem_cons hbound, hget]
    simp [throughClose, hclose]
  rw [hhanded.writes hparcel hframes, hhanded.throughClose_eq, hfirst, List.take_add_one, hparcel]
  rfl

/-- In each phase what was handed over is the first part of what the writer is due. -/
theorem Stage.isPrefix (hstage : c.Stage h i) :
    c.output.frames <+: (throughClose (h.entered i)).map Parcel.frame := by
  cases hstage with
  | unborn _ _ _ hframes =>
      rw [hframes]
      exact List.nil_prefix
  | receiving _ _ hhanded => exact hhanded.isPrefix
  | writing _ _ _ _ _ _ _ hhanded => exact hhanded.isPrefix
  | left _ _ hframes => exact hframes

/-- What everyone else does leaves the stage as it is, but for a start. -/
theorem Stage.of_aside (hstage : c.Stage h i) (haside : c.Aside c')
    (hframes : c'.output.frames = c.output.frames) (htaken : h'.taken i = h.taken i)
    {new : List Parcel} (hentered : h'.entered i = h.entered i ++ new) : c'.Stage h' i := by
  cases haside with
  | same hwriter hborn hkept =>
      cases hstage with
      | unborn howner hwriter' hkept' hnone hzero =>
          exact .unborn (hborn.mpr howner) (hwriter.trans hwriter') ((hkept howner).trans hkept')
            (hframes.trans hnone) (htaken.trans hzero)
      | receiving hbegun hwriter' hhanded =>
          exact .receiving (mt hborn.mp hbegun) (hwriter.trans hwriter')
            (htaken ▸ hhanded.grow hentered hframes)
      | writing parcel deadline n hbegun hwriter' hparcel hcount hhanded =>
          refine .writing parcel deadline n (mt hborn.mp hbegun) (hwriter.trans hwriter') ?_
            (htaken.trans hcount) (hhanded.grow hentered hframes)
          rw [hentered]
          exact List.getElem?_append_left (List.getElem?_eq_some_iff.mp hparcel).1 |>.trans hparcel
      | left hbegun hwriter' hbefore =>
          refine .left (mt hborn.mp hbegun) (by rw [hwriter, hwriter']) ?_
          rw [hframes, hentered]
          exact hbefore.trans ((throughClose_mono _ _).map _)
  | starts howner hbegun hwriter =>
      cases hstage with
      | unborn _ _ _ hnone hzero =>
          refine .receiving hbegun hwriter ?_
          rw [htaken, hzero]
          exact ⟨by rw [hframes, hnone]; rfl, by simp, Nat.zero_le _⟩
      | receiving hbegun' => exact absurd howner hbegun'
      | writing _ _ _ hbegun' => exact absurd howner hbegun'
      | left hbegun' => exact absurd howner hbegun'
  | unpolled howner hbegun hwriter =>
      cases hstage with
      | unborn _ _ _ hnone hzero =>
          refine .left hbegun (by rw [hwriter]; rfl) ?_
          rw [hframes, hnone]
          exact List.nil_prefix
      | receiving hbegun' => exact absurd howner hbegun'
      | writing _ _ _ hbegun' => exact absurd howner hbegun'
      | left hbegun' => exact absurd howner hbegun'

theorem Stage.begun (hstage : c.Stage h i) (hwriter : c.writer ≠ .unborn) : c.owner ≠ .unborn := by
  cases hstage with
  | unborn _ hwriter' => exact absurd hwriter' hwriter
  | receiving hbegun => exact hbegun
  | writing _ _ _ hbegun => exact hbegun
  | left hbegun => exact hbegun

theorem Stage.begun_of_breaksOff (hstage : c.Stage h i) {now : Nat} (hbreaks : c.BreaksOff now) :
    c.owner ≠ .unborn := by
  cases hstage with
  | unborn _ hwriter hkept =>
      cases hbreaks with
      | dropped hdropped => simp [hkept] at hdropped
      | failed _ _ hwriter' => simp [hwriter] at hwriter'
      | timedOut _ _ hwriter' => simp [hwriter] at hwriter'
  | receiving hbegun => exact hbegun
  | writing _ _ _ hbegun => exact hbegun
  | left hbegun => exact hbegun

/-- A turn of the writer leads from stage to stage. -/
theorem Stage.of_move (hstage : c.Stage s.hub i) (hmove : WriterMove i c s held r)
    (howner : r.1.owner = c.owner) (hentered : r.2.hub.entered = s.hub.entered) :
    r.1.Stage r.2.hub i := by
  have hbeginning := hstage.isPrefix
  have hbegun {now : Nat} (hbreaks : c.BreaksOff now) := hstage.begun_of_breaksOff hbreaks
  cases hstage with
  | unborn howner' hwriter =>
      -- a writer that was not started does not move
      cases hmove with
      | breaksOff hbreaks => exact absurd howner' (hbegun hbreaks)
      | takes _ _ hwriter' => simp [hwriter] at hwriter'
      | runsOut _ hwriter' => simp [hwriter] at hwriter'
      | writes _ _ _ hwriter' => simp [hwriter] at hwriter'
      | parts _ _ hwriter' => simp [hwriter] at hwriter'
  | receiving hbegun hwriter hhanded =>
      cases hmove with
      | breaksOff => exact .left hbegun rfl (by rw [hentered]; exact hbeginning)
      | takes parcel hub _ hreceive =>
          obtain ⟨hparcel, htaken⟩ := s.hub.receive_spec i hreceive
          have hsame : hub.entered i = s.hub.entered i ++ [] := by rw [hentered, List.append_nil]
          refine .writing parcel _ (s.hub.taken i) hbegun rfl (by rw [hentered]; exact hparcel) ?_
            (hhanded.grow hsame rfl)
          simp [htaken]
      | runsOut => exact .left hbegun rfl hbeginning
      | writes _ _ _ hwriter' => simp [hwriter] at hwriter'
      | parts _ _ hwriter' => simp [hwriter] at hwriter'
  | writing parcel limit n hbegun hwriter hparcel htaken hhanded =>
      cases hmove with
      | breaksOff => exact .left hbegun rfl (by rw [hentered]; exact hbeginning)
      | takes _ _ hwriter' => simp [hwriter] at hwriter'
      | runsOut _ hwriter' => simp [hwriter] at hwriter'
      | writes message _ deadline hwriter' =>
          obtain ⟨rfl, _⟩ : parcel.message = message ∧ limit = _ := by
            simpa [hwriter] using hwriter'
          have hframes := c.output.frames_write parcel.message.frame
          by_cases hclose : parcel.message.isClose = true
          case pos =>
            refine .left hbegun (by simp [hclose, Writer.hasLeft]) ?_
            rw [hhanded.closes hparcel hclose hframes]
          case neg =>
            refine .receiving hbegun (by simp [hclose]) ?_
            rw [htaken]
            exact hhanded.succ hparcel (Bool.eq_false_iff.mpr hclose) hframes
      | parts _ _ hwriter' => simp [hwriter] at hwriter'
  | left hbegun hwriter =>
      cases hmove with
      | breaksOff => exact .left hbegun rfl (by rw [hentered]; exact hbeginning)
      | takes _ _ hwriter' => simp [hwriter', Writer.hasLeft] at hwriter
      | runsOut _ hwriter' => simp [hwriter', Writer.hasLeft] at hwriter
      | writes _ _ _ hwriter' => simp [hwriter', Writer.hasLeft] at hwriter
      | parts deadline output _ hframes =>
          refine .left hbegun rfl ?_
          rw [hentered]
          exact hframes ▸ hbeginning

/-- A writer that leaves its loop and does not break off has handed over everything through the
first close, or else nobody can send any more. -/
theorem Stage.leaves (hstage : c.Stage s.hub i) (hmove : WriterMove i c s held r)
    (hgoes : ¬ c.BreaksOff s.now) (hinside : c.writer.hasLeft = false)
    (hleft : r.1.writer.hasLeft = true) :
    r.1.output.frames = (throughClose (s.hub.entered i)).map Parcel.frame ∧
      ((∃ parcel ∈ s.hub.entered i, parcel.message.isClose = true) ∨ held = false) := by
  cases hmove with
  | breaksOff hbreaks => exact absurd hbreaks hgoes
  | takes => cases hleft
  | runsOut deadline hwriter hreceive hheld =>
      cases hstage with
      | receiving _ _ hhanded =>
          obtain ⟨hall, hopen⟩ := hhanded.whole (s.hub.receive_none i hreceive)
          exact ⟨by rw [hopen]; exact hall, .inr hheld⟩
      | unborn _ hwriter' => simp [hwriter] at hwriter'
      | writing _ _ _ _ hwriter' => simp [hwriter] at hwriter'
      | left _ hwriter' => simp [hinside] at hwriter'
  | writes message limit deadline hwriter =>
      cases hstage with
      | writing parcel _ n _ hwriter' hparcel _ hhanded =>
          obtain ⟨rfl, _⟩ : parcel.message = message ∧ _ = limit := by
            simpa [hwriter'] using hwriter
          have hclose : parcel.message.isClose = true := by
            by_contra hopen
            simp [hopen, Writer.hasLeft] at hleft
          have hframes := c.output.frames_write parcel.message.frame
          exact ⟨hhanded.closes hparcel hclose hframes,
            .inl ⟨parcel, List.mem_of_getElem? hparcel, hclose⟩⟩
      | unborn _ hwriter' => simp [hwriter] at hwriter'
      | receiving _ hwriter' => simp [hwriter] at hwriter'
      | left _ hwriter' => simp [hinside] at hwriter'
  | parts _ _ hwriter => simp [hwriter, Writer.hasLeft] at hinside

/-- How much a writer has ahead of it: a turn to take each parcel and one to write it. -/
def ahead (c : Conn) (h : Hub) (i : Nat) : Nat :=
  2 * ((h.entered i).length - h.taken i) + c.writer.inHand

/-- What a writer in its loop is about to do. -/
inductive Outlook (c : Conn) (i : Nat) (s : Instance) (held : Bool) : Prop where
  /-- It waits for more. -/
  | whole (hframes : c.output.frames = (throughClose (s.hub.entered i)).map Parcel.frame)
  | breaksOff (hbreaks : c.BreaksOff s.now)
  /-- The socket holds it up, and it is in time yet. -/
  | stalls (message : Outbound) (deadline : Nat) (hwriter : c.writer = .writing message deadline)
      (hmode : c.output.mode = .stalled) (hearly : s.now < deadline)
  | getsOn (r : Conn × Instance) (hstep : c.writerStep i s held = some r)
      (hgoes : ¬ c.BreaksOff s.now)
      (hless : r.1.writer.hasLeft = true ∨ r.1.ahead r.2.hub i < c.ahead s.hub i)

theorem Stage.outlook (hstage : c.Stage s.hub i) (hbegun : c.owner ≠ .unborn)
    (hinside : c.writer.hasLeft = false) (held : Bool) : c.Outlook i s held := by
  by_cases hdropped : c.writerDropped = true
  case pos =>
    refine .breaksOff (.dropped hdropped ?_)
    cases hwriter : c.writer <;> simp_all [Writer.hasLeft, Writer.hasEnded]
  cases hstage with
  | unborn howner => exact absurd howner hbegun
  | left _ hleft => simp [hinside] at hleft
  | receiving _ hwriter hhanded =>
      cases hreceive : s.hub.receive i with
      | none =>
          obtain ⟨hall, hopen⟩ := hhanded.whole (s.hub.receive_none i hreceive)
          exact .whole (by rw [hopen]; exact hall)
      | some first =>
          obtain ⟨parcel, hub⟩ := first
          obtain ⟨hparcel, htaken⟩ := s.hub.receive_spec i hreceive
          have hbound := (List.getElem?_eq_some_iff.mp hparcel).1
          refine .getsOn
            ({ c with writer := .writing parcel.message (s.now + s.hub.sendTimeout) },
              { s with hub })
            (by simp [writerStep, hdropped, hwriter, hreceive]) ?_ (.inr ?_)
          · intro hbreaks
            cases hbreaks <;> simp_all
          · have hentered := (Hub.Alike.receive hreceive).entered
            simp only [ahead, hentered, htaken, hwriter, Function.update_self, Writer.inHand]
            omega
  | writing parcel deadline n _ hwriter =>
      cases hmode : c.output.mode with
      | failing => exact .breaksOff (.failed _ _ hwriter hmode)
      | stalled =>
          by_cases hdue : deadline ≤ s.now
          · exact .breaksOff (.timedOut _ _ hwriter hmode hdue)
          · exact .stalls _ _ hwriter hmode (Nat.lt_of_not_le hdue)
      | accepting =>
          refine .getsOn _ (by simp [writerStep, hdropped, hwriter, hmode]; rfl) ?_ ?_
          · intro hbreaks
            cases hbreaks <;> simp_all
          · by_cases hclose : parcel.message.isClose = true
            · exact .inl (by simp [hclose, Writer.hasLeft])
            · exact .inr (by simp [ahead, hclose, hwriter, Writer.inHand])

end Conn
end Rollcall.Session
