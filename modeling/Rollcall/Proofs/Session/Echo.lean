import Rollcall.Proofs.Session.Traffic

/-!
Echoes.

Under the echo policy a channel takes in notices, which go to everyone, the farewell of its own task
and echoes. An owner that reads a payload sends it back and reads on only when it has arrived, so
what is echoed and what is still on its way make up all that was read (`Conn.EchoAct`). An echo that
comes to nothing ends the reading, hence it is the last (`World.EchoState`).
-/

namespace Rollcall.Connection

/-- What goes to everyone: a count, or what is ordered from outside. -/
inductive Parcel.IsNotice : Parcel → Prop where
  | announcement (n count : Nat) : IsNotice ⟨.announcement n, .announcement count⟩
  | order (n : Nat) (message : Outbound) : IsNotice ⟨.order n, message⟩

/-- Whether a parcel is left when those of broadcasts and the farewells are taken out. -/
def Parcel.isOwn (parcel : Parcel) : Bool :=
  parcel.origin.broadcast?.isNone && parcel.origin != .farewell

/-- What may enter a channel where payloads are echoed. -/
def Parcel.Fits (parcel : Parcel) : Prop :=
  parcel.IsNotice ∨ parcel = ⟨.farewell, .close⟩ ∨ parcel.origin = .echo

theorem Parcel.IsNotice.isOwn {parcel : Parcel} (hnotice : parcel.IsNotice) :
    parcel.isOwn = false := by
  cases hnotice <;> rfl

namespace Hub

/-- The messages of a channel that no broadcast and no farewell put there, in order. -/
def echoed (h : Hub) (i : Nat) : List Outbound :=
  ((h.entered i).filter Parcel.isOwn).map Parcel.message

def Gains (kind : Parcel → Prop) (i : Nat) (h h' : Hub) : Prop :=
  ∃ new, h'.entered i = h.entered i ++ new ∧ ∀ parcel ∈ new, kind parcel

variable {kind wider : Parcel → Prop} {i : Nat} {h h' : Hub} {parcel : Parcel}

theorem Gains.of_same (hsame : h'.entered i = h.entered i) : Gains kind i h h' :=
  ⟨[], by rw [hsame, List.append_nil], by simp⟩

theorem Gains.of_replicate {n : Nat}
    (hentered : h'.entered i = h.entered i ++ List.replicate n parcel)
    (hkind : kind parcel) : Gains kind i h h' :=
  ⟨_, hentered, fun _ hp => List.eq_of_mem_replicate hp ▸ hkind⟩

theorem Gains.mono (hgains : Gains kind i h h') (hwider : ∀ parcel, kind parcel → wider parcel) :
    Gains wider i h h' := by
  obtain ⟨new, hnew, hkind⟩ := hgains
  exact ⟨new, hnew, fun p hp => hwider p (hkind p hp)⟩

/-- What is of the kind stays so. -/
theorem Gains.forall_entered (hgains : Gains kind i h h') (hall : ∀ p ∈ h.entered i, kind p) :
    ∀ p ∈ h'.entered i, kind p := by
  obtain ⟨new, hnew, hkind⟩ := hgains
  intro p hp
  rw [hnew] at hp
  exact (List.mem_append.mp hp).elim (hall p) (hkind p)

/-- Nothing is echoed by what is not a connection's own. -/
theorem Gains.echoed_eq (hgains : Gains kind i h h')
    (hforeign : ∀ parcel, kind parcel → parcel.isOwn = false) : h'.echoed i = h.echoed i := by
  obtain ⟨new, hnew, hkind⟩ := hgains
  have hempty : new.filter Parcel.isOwn = [] :=
    List.filter_eq_nil_iff.mpr fun p hp => by simp [hforeign p (hkind p hp)]
  rw [echoed, hnew, List.filter_append, hempty, List.append_nil]
  rfl

theorem echoed_of_replicate {n : Nat}
    (hentered : h'.entered i = h.entered i ++ List.replicate n parcel)
    (hown : parcel.isOwn = true) : h'.echoed i = h.echoed i ++ List.replicate n parcel.message := by
  simp [echoed, hentered, hown]

end Hub

variable {b b' : Broadcast} {parcel : Parcel} {h h' : Hub} {kind : Parcel → Prop}

theorem Broadcast.Begins.gains (hbegins : b.Begins parcel h h') (hkind : kind parcel) (i : Nat) :
    Hub.Gains kind i h h' := .of_replicate (hbegins.entered i) hkind

theorem Broadcast.GoesOn.gains (hgoes : b.GoesOn b' h h') (hcarries : b.Carries parcel)
    (hkind : kind parcel) (i : Nat) : Hub.Gains kind i h h' := by
  obtain ⟨n, hentered, _⟩ := hgoes.entered parcel hcarries i
  exact .of_replicate hentered hkind

/-- A broadcast that puts nothing but a notice into the channels. -/
def Broadcast.Notifies (b : Broadcast) : Prop := ∃ parcel, b.Carries parcel ∧ parcel.IsNotice

end Rollcall.Connection

namespace Rollcall.Session

open Connection

theorem Instance.announcement_isNotice (s : Instance) : s.announcement.IsNotice := .announcement _ _

/-- Where only notices are broadcast, a channel gains nothing but notices. -/
theorem Instance.Act.gains {s s' : Instance} {before later : Option Broadcast}
    (hact : s.Act s' before later) (hnotifies : ∀ b, before = some b → b.Notifies) (i : Nat) :
    Hub.Gains Parcel.IsNotice i s.hub s'.hub := by
  cases hact with
  | quiet hsite => exact .of_same (congrFun hsite.entered i)
  | announce b hsite => exact hsite.hub.gains s.announcement_isNotice i
  | goesOn b b' hunfinished hsite =>
      obtain ⟨parcel, hcarries, hnotice⟩ := hnotifies b rfl
      exact hsite.hub.gains hcarries hnotice i
  | settles b hsite => exact .of_same (congrFun hsite.hub.entered i)

def Owner.pending : Owner → List Outbound
  | .echoing send => if send.state = .delivered then [] else [send.parcel.message]
  | _ => []

/-- Whether an owner has read its last frame. -/
def Owner.IsOver (o : Owner) : Prop := o.stage = .closing ∨ o.stage = .closed

theorem Owner.IsOver.pending {o : Owner} (hover : o.IsOver) : o.pending = [] := by
  cases o <;> simp_all [IsOver, stage, Owner.pending]

theorem Owner.pending_of_ne {o : Owner} (hfree : ∀ send, o ≠ .echoing send) : o.pending = [] := by
  cases o <;> simp_all [Owner.pending]

namespace Conn

/-- The echo of a message comes to nothing: it finds the channel closed, its deadline passes, or the
owner is dropped before it has arrived. -/
inductive LosesEcho (c : Conn) (s : Instance) (message : Outbound) (c' : Conn) : Prop where
  | failed (send : Send) (howner : c.owner = .echoing send)
      (hmessage : send.parcel.message = message)
      (hfate : (send.resume s.hub s.now).1.state = .refused ∨
        (send.resume s.hub s.now).1.state = .timedOut)
      (hends : c'.owner = .finishing .writeFailed)
  | dropped (send : Send) (howner : c.owner = .echoing send)
      (hmessage : send.parcel.message = message) (hmissing : send.state ≠ .delivered)
      (hends : c'.owner = .aborted)

/-- An owner that loses an echo reads no further frame. -/
theorem LosesEcho.isOver {c c' : Conn} {s : Instance} {message : Outbound}
    (hloses : c.LosesEcho s message c') : c'.owner.IsOver := by
  cases hloses with
  | failed _ _ _ _ hends => exact .inl (by rw [hends]; rfl)
  | dropped _ _ _ _ hends => exact .inr (by rw [hends]; rfl)

/-- What a turn of an owner is to the echoes of its connection. -/
inductive EchoAct (i : Nat) (c : Conn) (s : Instance) (r : Conn × Instance) : Prop where
  /-- What is echoed and what is on its way grow by what is read. -/
  | balanced (fresh : List Outbound) (hfresh : c.owner ≠ .listening → fresh = [])
      (hread : r.1.payloads = c.payloads ++ fresh)
      (hechoed : r.2.hub.echoed i ++ r.1.owner.pending =
        s.hub.echoed i ++ c.owner.pending ++ fresh)
      (hgains : Hub.Gains Parcel.Fits i s.hub r.2.hub)
  | lost (message : Outbound) (hpending : c.owner.pending = [message])
      (hloses : c.LosesEcho s message r.1) (hread : r.1.payloads = c.payloads)
      (hechoed : r.2.hub.echoed i = s.hub.echoed i) (hgains : Hub.Gains Parcel.Fits i s.hub r.2.hub)

variable {i : Nat} {c : Conn} {s : Instance} {r : Conn × Instance}

/-- A turn at which nothing is read and nothing is on its way. -/
theorem EchoAct.of_idle {kind : Parcel → Prop} (hfits : ∀ parcel, kind parcel → parcel.Fits)
    (hforeign : ∀ parcel, kind parcel → parcel.isOwn = false)
    (hgains : Hub.Gains kind i s.hub r.2.hub)
    (hbefore : c.owner.pending = []) (hlater : r.1.owner.pending = [])
    (hread : r.1.payloads = c.payloads) : EchoAct i c s r := by
  refine .balanced [] (fun _ => rfl) (by rw [hread, List.append_nil]) ?_ (hgains.mono hfits)
  simp [hbefore, hlater, hgains.echoed_eq hforeign]

/-- An owner that is dropped loses the echo that was on its way, if there was one. -/
theorem pending_dropped {c' : Conn} (hends : c'.owner = .aborted) :
    c.owner.pending = [] ∨
      ∃ message, c.owner.pending = [message] ∧ c.LosesEcho s message c' := by
  cases howner : c.owner with
  | echoing send =>
      by_cases hdelivered : send.state = .delivered
      · exact .inl (by simp [Owner.pending, hdelivered])
      · exact .inr
          ⟨_, by simp [Owner.pending, hdelivered], .dropped send howner rfl hdelivered hends⟩
  | _ => exact .inl rfl

theorem echoAct_dropped (hdrop : r = c.drop i s true) : EchoAct i c s r := by
  obtain ⟨hsilent, haborted, hread⟩ := c.drop_silent i s true
  rw [← hdrop] at hsilent haborted hread
  have hsame : r.2.hub.entered i = s.hub.entered i := congrFun hsilent.entered i
  have hnothing : r.1.owner.pending = [] := by rw [haborted]; rfl
  rcases pending_dropped (s := s) haborted with hidle | ⟨message, hpending, hloses⟩
  · exact .of_idle (fun _ => False.elim) (fun _ => False.elim) (.of_same hsame) hidle hnothing hread
  · exact .lost message hpending hloses hread (by simp only [Hub.echoed, hsame]) (.of_same hsame)

/-- An echo that begins has arrived or is on its way. -/
theorem echoAct_echo {send : Send} {message : Outbound} (howner : c.owner = .listening)
    (hsends : r.1.owner = .echoing send) (htarget : send.target = i)
    (hparcel : send.parcel = ⟨.echo, message⟩) (hread : r.1.payloads = c.payloads ++ [message])
    (hentered : r.2.hub.entered i =
      s.hub.entered i ++ List.replicate (send.reached.count i) send.parcel) : EchoAct i c s r := by
  have hnothing : c.owner.pending = [] := by rw [howner]; rfl
  have hechoed := Hub.echoed_of_replicate hentered (by rw [hparcel]; rfl)
  refine .balanced [message] (absurd howner) hread ?_
    (.of_replicate hentered (.inr (.inr (by rw [hparcel]))))
  rw [hechoed, hnothing, hsends]
  by_cases hdelivered : send.state = .delivered
  · simp [Send.reached, Owner.pending, hdelivered, htarget, hparcel]
  · simp [Send.reached, Owner.pending, hdelivered, hparcel]

/-- An echo that is over has arrived, before or now, or it is lost. -/
theorem echoAct_echoed {send : Send} (howner : c.owner = .echoing send) (htarget : send.target = i)
    (horigin : send.parcel.origin = .echo)
    (hfate : (send.resume s.hub s.now).1.state = .delivered ∨
      ((send.resume s.hub s.now).1.state = .refused ∨
        (send.resume s.hub s.now).1.state = .timedOut) ∧ r.1.owner = .finishing .writeFailed)
    (hrests : c.Rests r.1) (hentered : r.2.hub.entered = (send.resume s.hub s.now).2.entered) :
    EchoAct i c s r := by
  obtain ⟨hsame, _, _, hresumed⟩ := send.resume_spec s.hub s.now
  obtain ⟨n, hnew, hcount⟩ := hresumed i
  rw [← hentered] at hnew
  have hown : send.parcel.isOwn = true := by simp [Parcel.isOwn, horigin, Origin.broadcast?]
  have hechoed := Hub.echoed_of_replicate hnew hown
  have hgains : Hub.Gains Parcel.Fits i s.hub r.2.hub := .of_replicate hnew (.inr (.inr horigin))
  have hnothing : r.1.owner.pending = [] := Owner.pending_of_ne hrests.silent
  have hpending : c.owner.pending =
      if send.state = .delivered then [] else [send.parcel.message] := by rw [howner]; rfl
  rcases hfate with hdelivered | ⟨hfailed, hends⟩
  case inl =>
    refine .balanced [] (fun _ => rfl) (by rw [hrests.read, List.append_nil]) ?_ hgains
    rw [hechoed, hnothing, hpending]
    by_cases hbefore : send.state = .delivered
    · obtain rfl : n = 0 := by
        simpa [Send.reached, hdelivered, hbefore, hsame, htarget] using hcount
      simp [hbefore]
    · obtain rfl : n = 1 := by
        simpa [Send.reached, hdelivered, hbefore, hsame, htarget] using hcount.symm
      simp [hbefore]
  case inr =>
    have hmissing : (send.resume s.hub s.now).1.state ≠ .delivered := by
      rcases hfailed with hstate | hstate <;> simp [hstate]
    -- the copies in the channel are counted, so it had not arrived before either
    have hnone : send.reached.count i = 0 ∧ n = 0 := by
      have hnowhere : (send.resume s.hub s.now).1.reached.count i = 0 := by
        rw [Send.reached, if_neg hmissing, List.count_nil]
      omega
    obtain ⟨hunreached, rfl⟩ := hnone
    have hbefore : send.state ≠ .delivered := by
      intro hdelivered
      simp [Send.reached, hdelivered, htarget] at hunreached
    exact .lost _ (by rw [hpending, if_neg hbefore]) (.failed send howner rfl hfailed hends)
      hrests.read (by rw [hechoed, List.replicate_zero, List.append_nil]) hgains

/-- Under the echo policy every turn of an owner is an act of echoing, an idle one at most. -/
theorem ownerStep_echoAct {first : Branch} (hpolicy : s.policy = .echo)
    (hdistinct : s.hub.registered.Nodup)
    (hechoes : ∀ send, c.owner = .echoing send → send.target = i ∧ send.parcel.origin = .echo)
    (hnotifies : ∀ b, c.owner.broadcast? = some b → b.Notifies)
    (hstep : c.ownerStep i s first = some r) : EchoAct i c s r := by
  cases ownerStep_act hdistinct (fun send howner => (hechoes send howner).2) hstep with
  | dropped _ hdrop => exact echoAct_dropped hdrop
  | act _ hact hfree hsilent hread =>
      exact .of_idle (fun _ => .inl) (fun _ hnotice => hnotice.isOwn) (hact.gains hnotifies i)
        (Owner.pending_of_ne hfree) (Owner.pending_of_ne hsilent) hread
  | echo _ send message howner _ hsends htarget hparcel hread _ hentered =>
      exact echoAct_echo howner hsends htarget hparcel hread (hentered i)
  | echoed _ send howner hfate hrests _ hentered =>
      obtain ⟨htarget, horigin⟩ := hechoes send howner
      exact echoAct_echoed howner htarget horigin hfate hrests hentered
  | relay _ _ _ _ _ _ _ _ hrelays => simp [hpolicy] at hrelays
  | farewell _ reason howner hrests _ hentered =>
      have hgains : Hub.Gains (· = ⟨.farewell, .close⟩) i s.hub r.2.hub := by
        refine ⟨_, (congrFun hentered i).trans (s.hub.entered_trySend i _ i), fun p hp => ?_⟩
        split at hp
        · exact List.mem_singleton.mp hp
        · cases hp
      exact .of_idle (fun _ hp => .inr (.inl hp)) (fun _ hp => by rw [hp]; rfl) hgains
        (by rw [howner]; rfl) (Owner.pending_of_ne hrests.silent) hrests.read

end Conn

section Over

variable {i : Nat} {c c' : Conn} {s : Instance} {r : Conn × Instance} {w w' : World} {e : Event}

/-- Once over, an owner stays so. -/
theorem OwnerMove.isOver (hmove : OwnerMove i c s r) (hover : c.owner.IsOver) :
    r.1.owner.IsOver := by
  cases hmove with
  | drop => exact .inr (by rw [(c.drop_move i s true).aborted]; rfl)
  | start howner => simp [Owner.IsOver, howner, Owner.stage] at hover
  | join call _ _ howner => simp [Owner.IsOver, howner, Owner.stage] at hover
  | miss call _ _ howner => simp [Owner.IsOver, howner, Owner.stage] at hover
  | work c' s' hopen => simp [Owner.IsOver, hopen] at hover
  | finish c' s' reason hopen => simp [Owner.IsOver, hopen] at hover
  | part => exact .inl rfl
  | stop => exact .inr rfl

theorem Fate.isOver (hfate : Fate i c w w' e c') (hover : c.owner.IsOver) : c'.owner.IsOver := by
  cases hfate with
  | aside howner => rwa [howner]
  | owner _ hmove => exact hmove.isOver hover
  | cleanup _ hmove => rwa [hmove.owner_eq]
  | orphan _ hmove => exact .inr (by rw [hmove.aborted]; rfl)

end Over

namespace World

/-- The payload read from connection `i` whose echo is on its way. -/
def pending (w : World) (i : Nat) : List Outbound :=
  (w.conns[i]?.map fun c => c.owner.pending).getD []

/-- At this event the echo of a message to connection `i` comes to nothing. -/
def LosesEcho (i : Nat) (message : Outbound) (w w' : World) : Prop :=
  ∃ c c', w.conns[i]? = some c ∧ w'.conns[i]? = some c' ∧ c.LosesEcho w.site message c'

/-- Every broadcast under way carries a notice. -/
def Notifies (w : World) : Prop := ∀ k b, w.underway k = some b → b.Notifies

/-- What is echoed to connection `i`, against what was read from it. `Lost` tells which echoes have
come to nothing. -/
inductive EchoState (Lost : Outbound → Prop) (i : Nat) (w : World) : Prop where
  | whole (hall : w.payloads i = w.site.hub.echoed i ++ w.pending i)
  | lost (message : Outbound) (hlost : Lost message) (c : Conn) (hconn : w.conns[i]? = some c)
      (hover : c.owner.IsOver) (hall : w.payloads i = w.site.hub.echoed i ++ [message])

variable {w w' : World} {e : Event} {i : Nat} {Lost Lost' : Outbound → Prop}

theorem pending_conn {c : Conn} (hconn : w.conns[i]? = some c) : w.pending i = c.owner.pending := by
  simp [pending, hconn]

/-- In echo mode broadcasts are notices, and none begins because of a frame. -/
theorem Cause.isNotice {k : Sender} {parcel : Parcel} (hcause : w.Cause k parcel w')
    (hpolicy : w.site.policy = .echo) : parcel.IsNotice ∧ w'.payloads = w.payloads := by
  cases hcause with
  | announcement hparcel hread => exact ⟨hparcel ▸ w.site.announcement_isNotice, hread⟩
  | relay _ _ _ _ _ hrelays => simp [hpolicy] at hrelays
  | order message _ hparcel hread => exact ⟨hparcel ▸ .order _ message, hread⟩

theorem Notifies.of_traffic (hnotifies : w.Notifies) (hpolicy : w.site.policy = .echo)
    (htraffic : w.Traffic e w') : w'.Notifies := by
  intro k b hlater
  rcases htraffic.source hlater with hsame | ⟨before, hbefore, hsite⟩ | ⟨parcel, hsite, hcause, _⟩
  · exact hnotifies k b hsame
  · obtain ⟨parcel, hcarries, hnotice⟩ := hnotifies k before hbefore
    exact ⟨parcel, hsite.hub.carries parcel hcarries, hnotice⟩
  · exact ⟨parcel, hsite.hub.carries, (hcause.isNotice hpolicy).1⟩

/-- Only the turns of its own owner put anything but notices into a channel. -/
theorem Traffic.gains (htraffic : w.Traffic e w') (hpolicy : w.site.policy = .echo)
    (hnotifies : w.Notifies) (hother : ∀ first, e ≠ .turn (.owner i first)) :
    Hub.Gains Parcel.IsNotice i w.site.hub w'.site.hub ∧ w'.payloads i = w.payloads i := by
  cases htraffic with
  | quiet hsite hunderway hreturning hread hpasses =>
      obtain ⟨hentered, hpayloads⟩ := hpasses i hother
      exact ⟨.of_same hentered, hpayloads⟩
  | begins k b parcel hidle hsite hunderway hreturning hcause =>
      obtain ⟨hnotice, hread⟩ := hcause.isNotice hpolicy
      exact ⟨hsite.hub.gains hnotice i, congrFun hread i⟩
  | goesOn k b b' hbefore hsite hunderway hreturning hread =>
      obtain ⟨parcel, hcarries, hnotice⟩ := hnotifies k b hbefore
      exact ⟨hsite.hub.gains hcarries hnotice i, congrFun hread i⟩
  | settles k b hbefore hsite hunderway hreturning hread =>
      exact ⟨.of_same (congrFun hsite.hub.entered i), congrFun hread i⟩
  | givesUp j b c runtime hconn hbefore hdrop hruntime hsite hunderway hreturning hread hentered =>
      exact ⟨.of_same (congrFun hentered i), congrFun hread i⟩

/-- Beside the turns of its owner, an echo on its way stays so or the owner is dropped. -/
theorem pending_after (hafter : w.after e = some w')
    (hother : ∀ first, e ≠ .turn (.owner i first)) :
    w'.pending i = w.pending i ∨ ∃ message c', w.pending i = [message] ∧
      w.LosesEcho i message w' ∧ w'.conns[i]? = some c' ∧ c'.owner.IsOver := by
  have hadvance := after_advance hafter
  cases hconn : w.conns[i]? with
  | none =>
      refine .inl ?_
      cases hconn' : w'.conns[i]? with
      | none => simp [pending, hconn, hconn']
      | some c' =>
          obtain ⟨input, output, rfl⟩ := hadvance.newcomer hconn hconn'
          simp [pending, hconn, hconn', Conn.create, Owner.pending]
  | some c =>
      obtain ⟨c', hconn', hfate⟩ := hadvance.fate hconn
      rw [pending_conn hconn, pending_conn hconn']
      cases hfate with
      | aside howner => exact .inl (by rw [howner])
      | owner hevent => exact absurd hevent (hother _)
      | cleanup _ hmove => exact .inl (by rw [hmove.owner_eq])
      | orphan _ hmove =>
          have haborted : c'.owner = .aborted := hmove.aborted
          rcases Conn.pending_dropped (c := c) (s := w.site) haborted with
            hidle | ⟨message, hpending, hloses⟩
          · exact .inl (by rw [hidle, haborted]; rfl)
          · exact .inr ⟨message, c', hpending, ⟨c, c', hconn, hconn', hloses⟩, hconn',
              hloses.isOver⟩

namespace EchoState

/-- A turn of the owner. -/
theorem of_turn {first : Branch} (hstate : w.EchoState Lost i) (hregular : w.Regular True)
    (hpolicy : w.site.policy = .echo) (hnotifies : w.Notifies)
    (hafter : w.after (.turn (.owner i first)) = some w')
    (hkept : ∀ message, Lost message → Lost' message)
    (hloses : ∀ message, w.LosesEcho i message w' → Lost' message) :
    w'.EchoState Lost' i ∧ Hub.Gains Parcel.Fits i w.site.hub w'.site.hub := by
  have hfollows := after_advance hafter
  obtain ⟨c, r, hconn, hstep, rfl⟩ := put_eq_of_step hafter
  have hconn' : (w.put i r).conns[i]? = some r.1 := by
    simp [put, (List.getElem?_eq_some_iff.mp hconn).1]
  have hnotices (b : Broadcast) (hb : c.owner.broadcast? = some b) : b.Notifies :=
    hnotifies (.owner i) b ((underway_owner hconn).trans hb)
  have hact := Conn.ownerStep_echoAct hpolicy hregular.sound.distinct
    (fun send => hregular.echoes i c send hconn) hnotices hstep
  have hbefore := payloads_conn hconn
  have hlater := payloads_conn hconn'
  cases hstate with
  | whole hall =>
      rw [pending_conn hconn, hbefore] at hall
      cases hact with
      | balanced fresh hfresh hread hechoed hgains =>
          refine ⟨.whole ?_, hgains⟩
          rw [pending_conn hconn', hlater, hread, hall]
          exact hechoed.symm
      | lost message hpending hlost hread hechoed hgains =>
          refine ⟨.lost message (hloses _ ⟨c, r.1, hconn, hconn', hlost⟩) r.1 hconn'
            hlost.isOver ?_, hgains⟩
          rw [hlater, hread, hall, hpending]
          exact congrArg (· ++ [message]) hechoed.symm
  | lost message hlost d hd hover hall =>
      obtain rfl : c = d := Option.some.inj (hconn.symm.trans hd)
      obtain ⟨d', hd', hfate⟩ := hfollows.fate hconn
      obtain rfl : r.1 = d' := Option.some.inj (hconn'.symm.trans hd')
      have hover' := hfate.isOver hover
      cases hact with
      | balanced fresh hfresh hread hechoed hgains =>
          have hdeaf : c.owner ≠ .listening := by
            intro hlistens
            simp [Owner.IsOver, hlistens, Owner.stage] at hover
          obtain rfl := hfresh hdeaf
          rw [hover.pending, hover'.pending] at hechoed
          simp only [List.append_nil] at hechoed hread
          refine ⟨.lost message (hkept _ hlost) r.1 hconn' hover' ?_, hgains⟩
          rw [hlater, hread, ← hbefore, hall]
          exact congrArg (· ++ [message]) hechoed.symm
      | lost _ hpending => simp [hover.pending] at hpending

/-- Any other event. -/
theorem of_other (hstate : w.EchoState Lost i) (hpolicy : w.site.policy = .echo)
    (hnotifies : w.Notifies) (htraffic : w.Traffic e w') (hafter : w.after e = some w')
    (hother : ∀ first, e ≠ .turn (.owner i first))
    (hkept : ∀ message, Lost message → Lost' message)
    (hloses : ∀ message, w.LosesEcho i message w' → Lost' message) : w'.EchoState Lost' i := by
  obtain ⟨hgains, hread⟩ := htraffic.gains hpolicy hnotifies hother
  have hechoed := hgains.echoed_eq fun _ hnotice => hnotice.isOwn
  cases hstate with
  | whole hall =>
      rcases pending_after hafter hother with hsame | ⟨message, c', hpending, hlost, hconn', hover⟩
      · exact .whole (by rw [hread, hechoed, hsame, hall])
      · exact .lost message (hloses message hlost) c' hconn' hover
          (by rw [hread, hechoed, hall, hpending])
  | lost message hlost c hconn hover hall =>
      obtain ⟨c', hconn', hfate⟩ := (after_advance hafter).fate hconn
      exact .lost message (hkept message hlost) c' hconn' (hfate.isOver hover)
        (by rw [hread, hechoed, hall])

end EchoState
end World

/-- In a run from `v` to `w` the echo of a message to connection `i` came to nothing. -/
def LostEcho (may : Event → Prop) (v w : World) (i : Nat) (message : Outbound) : Prop :=
  ∃ u e u', Run may v u ∧ may e ∧ u.after e = some u' ∧ u.LosesEcho i message u' ∧ Run may u' w

theorem LostEcho.later {may : Event → Prop} {v w w' : World} {i : Nat}
    {message : Outbound} {e : Event}
    (hlost : LostEcho may v w i message) (hmay : may e) (hafter : w.after e = some w') :
    LostEcho may v w' i message := by
  obtain ⟨u, f, u', hbefore, hf, hfails, hloses, hlater⟩ := hlost
  exact ⟨u, f, u', hbefore, hf, hfails, hloses, .step e hlater hmay hafter⟩

section Runs

variable {may : Event → Prop} {buffer sendTimeout : Nat} {w : World}

theorem Run.echoState (run : Run may (World.create (Instance.create .echo buffer sendTimeout)) w)
    (i : Nat) : w.Regular True ∧ w.site.policy = .echo ∧ w.Notifies ∧
      w.EchoState (LostEcho may (World.create (Instance.create .echo buffer sendTimeout)) w i) i ∧
      ∀ parcel ∈ w.site.hub.entered i, parcel.Fits := by
  induction run with
  | refl =>
      refine ⟨World.regular_create True _ _ _, rfl, fun k b hk => ?_, .whole ?_,
        fun parcel hin => ?_⟩
      · cases k <;> simp [World.create, World.underway, Operator.broadcast?] at hk
      · rfl
      · simp [World.create, Instance.create, Hub.create, Hub.entered] at hin
  | @step v v' e run hmay hafter ih =>
      obtain ⟨hregular, hpolicy, hnotifies, hstate, hfits⟩ := ih
      have htraffic := hregular.traffic hafter
      have hecho : v'.EchoState
          (LostEcho may (World.create (Instance.create .echo buffer sendTimeout)) v' i) i ∧
            Hub.Gains Parcel.Fits i v.site.hub v'.site.hub := by
        by_cases hturn : ∃ first, e = .turn (.owner i first)
        · obtain ⟨first, rfl⟩ := hturn
          exact hstate.of_turn hregular hpolicy hnotifies hafter
            (fun message hlost => hlost.later hmay hafter)
            fun message hloses => ⟨v, _, v', run, hmay, hafter, hloses, .refl⟩
        · have hother := not_exists.mp hturn
          exact ⟨hstate.of_other hpolicy hnotifies htraffic hafter hother
            (fun message hlost => hlost.later hmay hafter)
            fun message hloses => ⟨v, e, v', run, hmay, hafter, hloses, .refl⟩,
            (htraffic.gains hpolicy hnotifies hother).1.mono fun _ => .inl⟩
      exact ⟨hregular.of_after (fun _ _ => trivial) hafter, htraffic.policy.trans hpolicy,
        hnotifies.of_traffic hpolicy htraffic, hecho.1, hecho.2.forall_entered hfits⟩

/-- Under the echo policy, in whatever order frames, broadcasts, evictions, stalls, closes and drops
come: a channel takes in notices to everyone, the farewell of its own task and echoes of what was
read from its own client. The echoes are all that was read, each once, in order and unaltered, but
for the last payload where its echo is on its way or has come to nothing. -/
theorem Run.echoes_own_payloads
    (run : Run may (World.create (Instance.create .echo buffer sendTimeout)) w) (i : Nat) :
    (∀ parcel ∈ w.site.hub.entered i, parcel.IsNotice ∨ parcel = ⟨.farewell, .close⟩ ∨
      ∃ message ∈ w.payloads i, parcel = ⟨.echo, message⟩) ∧
    (w.payloads i = w.site.hub.echoed i ++ w.pending i ∨
      ∃ message, w.payloads i = w.site.hub.echoed i ++ [message] ∧
        LostEcho may (World.create (Instance.create .echo buffer sendTimeout)) w i message) := by
  obtain ⟨_, _, _, hstate, hfits⟩ := run.echoState i
  have hechoed : ∃ rest, w.payloads i = w.site.hub.echoed i ++ rest := by
    cases hstate with
    | whole hall => exact ⟨_, hall⟩
    | lost message _ _ _ _ hall => exact ⟨_, hall⟩
  constructor
  · intro parcel hin
    rcases hfits parcel hin with hnotice | hfarewell | horigin
    · exact .inl hnotice
    · exact .inr (.inl hfarewell)
    · have hown : parcel.isOwn = true := by simp [Parcel.isOwn, horigin, Origin.broadcast?]
      obtain ⟨rest, hread⟩ := hechoed
      refine .inr (.inr ⟨parcel.message, ?_, by rw [← horigin]⟩)
      rw [hread]
      exact List.mem_append_left _
        (List.mem_map_of_mem (List.mem_filter.mpr ⟨hin, hown⟩))
  · cases hstate with
    | whole hall => exact .inl hall
    | lost message hlost _ _ _ hall => exact .inr ⟨message, hall, hlost⟩

end Runs

/-- Channels with one place. Alice reads what she is sent, and her second text is taken after she
was asked to close. Bob does not read, and the count that was announced keeps his only place, so his
first echo runs into its deadline. The first write to Carol fails, so her writer has ended and she
has been evicted when a text of hers is taken. -/
def stalledEchoEvents : List Event :=
  List.flatten
    [[.connect "alice" ⟨[], false⟩ (.create .accepting none),
        .connect "bob" ⟨[], false⟩ (.create .stalled none),
        .connect "carol" ⟨[], false⟩ (.create .failing none)],
      List.replicate 4 (.turn (.owner 0 .signal)), List.replicate 2 (.turn (.writer 0)),
      List.replicate 4 (.turn (.owner 2 .signal)), List.replicate 2 (.turn (.writer 2)),
      List.replicate 2 (.turn (.writer 0)),
      List.replicate 4 (.turn (.owner 1 .signal)), List.replicate 2 (.turn (.writer 0)),
      [.arrive 0 [.frame (.text "one"), .frame (.ping []), .frame (.text "two")],
        .arrive 1 [.frame (.text "three"), .frame (.text "four")],
        .arrive 2 [.frame (.text "five"), .frame (.text "six")]],
      List.replicate 2 (.turn (.owner 0 .signal)), List.replicate 2 (.turn (.writer 0)),
      [.close 0], List.replicate 3 (.turn (.owner 0 .arrival)),
      List.replicate 2 (.turn (.owner 2 .arrival)),
      [.turn (.owner 1 .signal), .pass 1000, .turn (.owner 1 .signal)]]

theorem echoes_own_payloads_stalled :
    ∃ w, (World.create (Instance.create .echo 1 1000)).play stalledEchoEvents = some w ∧
      w.payloads 0 = [.text "one", .text "two"] ∧ w.payloads 0 = w.site.hub.echoed 0 ∧
      w.payloads 1 = [.text "three"] ∧
      LostEcho (fun _ => True) (World.create (Instance.create .echo 1 1000)) w 1 (.text "three") ∧
      w.payloads 2 = [.text "five"] ∧
      LostEcho (fun _ => True) (World.create (Instance.create .echo 1 1000)) w 2
        (.text "five") := by
  have hplayed :
      ((World.create (Instance.create .echo 1 1000)).play stalledEchoEvents).any (fun w =>
        w.payloads 0 == [.text "one", .text "two"] && w.payloads 0 == w.site.hub.echoed 0 &&
          (w.payloads 1 == [.text "three"] && w.site.hub.echoed 1 == [] && w.pending 1 == []) &&
          (w.payloads 2 == [.text "five"] && w.site.hub.echoed 2 == [] && w.pending 2 == [])) := by
    decide
  obtain ⟨w, hplay, hthen⟩ := (Option.any_eq_true _ _).mp hplayed
  simp only [Bool.and_eq_true, beq_iff_eq] at hthen
  obtain ⟨⟨⟨hread, hechoed⟩, ⟨hbob, hnone⟩, hidle⟩, ⟨hcarol, hnone'⟩, hidle'⟩ := hthen
  have run : Run (fun _ => True) (World.create (Instance.create .echo 1 1000)) w :=
    .of_play (fun _ _ => trivial) hplay
  refine ⟨w, hplay, hread, hechoed, hbob, ?_, hcarol, ?_⟩
  · rcases (run.echoes_own_payloads 1).2 with hwhole | ⟨message, hall, hlost⟩
    · simp [hbob, hnone, hidle] at hwhole
    · obtain rfl : message = .text "three" := by simpa [hbob, hnone] using hall.symm
      exact hlost
  · rcases (run.echoes_own_payloads 2).2 with hwhole | ⟨message, hall, hlost⟩
    · simp [hcarol, hnone', hidle'] at hwhole
    · obtain rfl : message = .text "five" := by simpa [hcarol, hnone'] using hall.symm
      exact hlost

end Rollcall.Session
