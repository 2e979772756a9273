import Mathlib.Logic.Function.Basic
import Rollcall.Proofs.Session.Acts

/-!
The traffic of broadcasts.

Owners, cleanups and the operator have at most one broadcast under way each. An event begins the
broadcast of one of them, takes it further or ends it, or it is quiet (`World.Traffic`). From this
come the facts that all broadcasts share: each carries one parcel under a number of its own to
distinct targets, and no parcel in a channel has a number that was not given out (`World.Posted`).
-/

namespace Rollcall.Session

open Connection

def Operator.broadcast? : Operator → Option Broadcast
  | .announcing a => a.broadcast?
  | .broadcasting b => some b
  | _ => none

inductive Sender where
  | owner (conn : Nat)
  | cleanup (conn : Nat)
  | operator
deriving DecidableEq, Repr

namespace World

def underway (w : World) : Sender → Option Broadcast
  | .owner i => w.conns[i]?.bind fun c => c.owner.broadcast?
  | .cleanup i => w.conns[i]?.bind fun c => c.cleanup.broadcast?
  | .operator => w.operator.broadcast?

def payloads (w : World) (i : Nat) : List Outbound := (w.conns[i]?.map Conn.payloads).getD []

/-- The broadcast that an event goes on with. An owner that is to be dropped goes on with
nothing. -/
def pursued (w : World) : Event → Option Broadcast
  | .turn (.owner i _) =>
      w.conns[i]?.bind fun c => if c.ownerDropped then none else c.owner.broadcast?
  | .turn (.cleanup i) => w.underway (.cleanup i)
  | .operate => w.underway .operator
  | _ => none

/-- The broadcast that returns to its sender at an event. -/
def returning (w : World) (e : Event) : Option Broadcast := (w.pursued e).filter Broadcast.isOver

variable {orphans : Prop} {w w' : World} {e : Event}

/-- Why a broadcast begins, with what its sender had to read for it. -/
inductive Cause (w : World) (k : Sender) (parcel : Parcel) (w' : World) : Prop where
  | announcement (hparcel : parcel = w.site.announcement) (hread : w'.payloads = w.payloads)
  | relay (i : Nat) (message : Outbound) (hsender : k = .owner i)
      (hparcel : parcel = ⟨.relay w.site.hub.broadcasts i, message⟩)
      (hread : w'.payloads = Function.update w.payloads i (w.payloads i ++ [message]))
      (hpolicy : w.site.policy = .relay)
  | order (message : Outbound) (hsender : k = .operator)
      (hparcel : parcel = ⟨.order w.site.hub.broadcasts, message⟩)
      (hread : w'.payloads = w.payloads)

/-- Nothing enters channel `i`, and nothing is read from connection `i`. -/
structure Passes (i : Nat) (w w' : World) : Prop where
  entered : w'.site.hub.entered i = w.site.hub.entered i
  payloads : w'.payloads i = w.payloads i

/-- What an event is to the broadcasts under way. -/
inductive Traffic (w : World) (e : Event) (w' : World) : Prop where
  /-- Nothing but the owner of a connection puts a parcel of its own into the channel. -/
  | quiet (hsite : w.site.Quiet w'.site) (hunderway : w'.underway = w.underway)
      (hreturning : w.returning e = none)
      (hread : w'.payloads = w.payloads ∨ w.site.policy = .echo)
      (hpasses : ∀ i, (∀ first, e ≠ .turn (.owner i first)) → Passes i w w')
  | begins (k : Sender) (b : Broadcast) (parcel : Parcel) (hidle : w.underway k = none)
      (hsite : w.site.Only (b.Begins parcel) w'.site)
      (hunderway : w'.underway = Function.update w.underway k (some b))
      (hreturning : w.returning e = none) (hcause : w.Cause k parcel w')
  | goesOn (k : Sender) (b b' : Broadcast) (hbefore : w.underway k = some b)
      (hsite : w.site.Only (b.GoesOn b') w'.site)
      (hunderway : w'.underway = Function.update w.underway k (some b'))
      (hreturning : w.returning e = none) (hread : w'.payloads = w.payloads)
  | settles (k : Sender) (b : Broadcast) (hbefore : w.underway k = some b)
      (hsite : w.site.Settles b w'.site)
      (hunderway : w'.underway = Function.update w.underway k none)
      (hreturning : w.returning e = some b) (hread : w'.payloads = w.payloads)
  /-- The owner of a connection is dropped in the middle of a broadcast. -/
  | givesUp (i : Nat) (b : Broadcast) (c : Conn) (runtime : Bool) (hconn : w.conns[i]? = some c)
      (hbefore : w.underway (.owner i) = some b) (hdrop : w' = w.put i (c.drop i w.site runtime))
      (hruntime : runtime = false → e = .orphan i) (hsite : w.site.Quiet w'.site)
      (hunderway : w'.underway = Function.update w.underway (.owner i) none)
      (hreturning : w.returning e = none) (hread : w'.payloads = w.payloads)
      (hentered : w'.site.hub.entered = w.site.hub.entered)

theorem underway_owner {i : Nat} {c : Conn} (hconn : w.conns[i]? = some c) :
    w.underway (.owner i) = c.owner.broadcast? := by simp [underway, hconn]

theorem underway_cleanup {i : Nat} {c : Conn} (hconn : w.conns[i]? = some c) :
    w.underway (.cleanup i) = c.cleanup.broadcast? := by simp [underway, hconn]

theorem payloads_conn {i : Nat} {c : Conn} (hconn : w.conns[i]? = some c) :
    w.payloads i = c.payloads := by simp [payloads, hconn]

section Put

variable {i : Nat} {c : Conn} {r : Conn × Instance} (hconn : w.conns[i]? = some c)

include hconn

theorem underway_put : (w.put i r).underway = Function.update
    (Function.update w.underway (.owner i) r.1.owner.broadcast?) (.cleanup i)
      r.1.cleanup.broadcast? := by
  have hbound := (List.getElem?_eq_some_iff.mp hconn).1
  funext k
  cases k with
  | owner j =>
      by_cases hij : i = j
      · simp [underway, put, Function.update, hij, hij ▸ hbound]
      · simp [underway, put, Function.update, hij, Ne.symm hij]
  | cleanup j =>
      by_cases hij : i = j
      · simp [underway, put, Function.update, hij, hij ▸ hbound]
      · simp [underway, put, Function.update, hij, Ne.symm hij]
  | operator => simp [underway, put, Function.update]

theorem underway_put_owner (hcleanup : r.1.cleanup.broadcast? = c.cleanup.broadcast?) :
    (w.put i r).underway = Function.update w.underway (.owner i) r.1.owner.broadcast? := by
  rw [underway_put hconn, hcleanup, ← underway_cleanup hconn]
  refine (congrArg _ ?_).trans (Function.update_eq_self _ _)
  exact (Function.update_of_ne (by simp) _ _).symm

theorem underway_put_cleanup (howner : r.1.owner = c.owner) :
    (w.put i r).underway = Function.update w.underway (.cleanup i) r.1.cleanup.broadcast? := by
  rw [underway_put hconn, howner, ← underway_owner hconn, Function.update_eq_self]

theorem payloads_put : (w.put i r).payloads = Function.update w.payloads i r.1.payloads := by
  have hbound := (List.getElem?_eq_some_iff.mp hconn).1
  funext j
  by_cases hij : i = j
  · simp [payloads, put, Function.update, hij, hij ▸ hbound]
  · simp [payloads, put, Function.update, hij, Ne.symm hij]

theorem payloads_put_same (hread : r.1.payloads = c.payloads) :
    (w.put i r).payloads = w.payloads := by
  rw [payloads_put hconn, hread, ← payloads_conn hconn, Function.update_eq_self]

end Put

/-- A silent event at which nothing is read. -/
theorem Traffic.of_silent (hsite : w.site.Silent w'.site) (hunderway : w'.underway = w.underway)
    (hreturning : w.returning e = none) (hread : w'.payloads = w.payloads) : w.Traffic e w' :=
  .quiet hsite.toQuiet hunderway hreturning (.inl hread) fun i _ =>
    ⟨congrFun hsite.entered i, congrFun hread i⟩

/-- A change at the edge of a connection is not seen by the broadcasts. -/
theorem traffic_mapConn (i : Nat) {change : Conn → Conn}
    (howner : ∀ c, (change c).owner = c.owner) (hcleanup : ∀ c, (change c).cleanup = c.cleanup)
    (hread : ∀ c, (change c).read = c.read) (hreturning : w.returning e = none) :
    w.Traffic e (w.mapConn i change) := by
  have hview {α : Type} (view : Conn → α) (hkeeps : ∀ c, view (change c) = view c) (j : Nat) :
      (w.conns.modify i change)[j]?.map view = w.conns[j]?.map view := by
    simpa using congrArg (fun views => views[j]?) (map_modify w.conns i change view hkeeps)
  have hbind (view : Conn → Option Broadcast) (hkeeps : ∀ c, view (change c) = view c) (j : Nat) :
      (w.conns.modify i change)[j]?.bind view = w.conns[j]?.bind view := by
    simpa [Option.bind_map, Function.comp_def] using
      congrArg (fun seen => seen.bind id) (hview view hkeeps j)
  refine .of_silent (.refl _) ?_ hreturning ?_
  · funext k
    cases k with
    | owner j => exact hbind _ (fun c => by rw [howner]) j
    | cleanup j => exact hbind _ (fun c => by rw [hcleanup]) j
    | operator => rfl
  · funext j
    exact congrArg (fun payloads => Option.getD payloads [])
      (hview Conn.payloads (fun c => by simp [Conn.payloads, hread]) j)

theorem traffic_site {site : Instance} (hsite : w.site.Silent site)
    (hreturning : w.returning e = none) : w.Traffic e { w with site } :=
  .of_silent hsite rfl hreturning rfl

/-- An act of a sender is traffic. -/
theorem traffic_act {k : Sender} {later : Option Broadcast}
    (hact : w.site.Act w'.site (w.underway k) later)
    (hunderway : w'.underway = Function.update w.underway k later)
    (hreturning : w.returning e = (w.underway k).filter Broadcast.isOver)
    (hread : w'.payloads = w.payloads) : w.Traffic e w' := by
  generalize hbefore : w.underway k = before at hact hreturning
  cases hact with
  | quiet hsite =>
      refine .of_silent hsite ?_ hreturning hread
      rw [hunderway, ← hbefore, Function.update_eq_self]
  | announce b hsite =>
      exact .begins k b _ hbefore hsite hunderway hreturning (.announcement rfl hread)
  | goesOn b b' hunfinished hsite =>
      exact .goesOn k b b' hbefore hsite hunderway (by simp [hreturning, hunfinished]) hread
  | settles b hsite =>
      exact .settles k b hbefore hsite hunderway (by simp [hreturning, hsite.hub.isOver]) hread

/-- A task that is dropped with a broadcast under way gives it up. -/
theorem traffic_drop {i : Nat} {c : Conn} (runtime : Bool) (hconn : w.conns[i]? = some c)
    (hrecorded : c.Recorded orphans) (hruntime : runtime = false → e = .orphan i)
    (hreturning : w.returning e = none) : w.Traffic e (w.put i (c.drop i w.site runtime)) := by
  obtain ⟨hsilent, haborted, hread⟩ := c.drop_silent i w.site runtime
  have hunderway := underway_put_owner hconn
    ((c.drop_move i w.site runtime).cleanup_broadcast hrecorded)
  have hpayloads := payloads_put_same hconn hread
  rw [haborted] at hunderway
  cases hbefore : w.underway (.owner i) with
  | none =>
      refine .of_silent hsilent (hunderway.trans ?_) hreturning hpayloads
      exact (congrArg _ hbefore.symm).trans (Function.update_eq_self _ _)
  | some b =>
      exact .givesUp i b c runtime hconn hbefore rfl hruntime hsilent.toQuiet hunderway hreturning
        hpayloads hsilent.entered

/-- What owners echo goes into their own channel, and it belongs to no broadcast. -/
def Echoes (w : World) : Prop := ∀ (i : Nat) (c : Conn) (send : Send), w.conns[i]? = some c →
  c.owner = .echoing send → send.target = i ∧ send.parcel.origin = .echo

theorem traffic_owner {i : Nat} {first : Branch} {c : Conn} {r : Conn × Instance}
    (hsound : w.Sound orphans) (hechoes : w.Echoes) (hconn : w.conns[i]? = some c)
    (hstep : c.ownerStep i w.site first = some r) :
    w.Traffic (.turn (.owner i first)) (w.put i r) := by
  have hrecorded := (hsound.conns i c hconn).recorded
  have hunderway :=
    underway_put_owner hconn ((Conn.ownerStep_move hstep).cleanup_broadcast hrecorded)
  have hpursued (hkept : c.ownerDropped = false) :
      w.returning (.turn (.owner i first)) = (w.underway (.owner i)).filter Broadcast.isOver := by
    simp [returning, pursued, underway, hconn, hkept]
  have hidly (hkept : c.ownerDropped = false) (hidle : c.owner.broadcast? = none) :
      w.returning (.turn (.owner i first)) = none := by
    rw [hpursued hkept, underway_owner hconn, hidle]
    rfl
  -- a turn that leaves the broadcasts alone and puts something into no other channel
  have hquiet (hkept : c.ownerDropped = false) (hbefore : c.owner.broadcast? = none)
      (hlater : r.1.owner.broadcast? = none) (hsite : w.site.Quiet r.2)
      (hread : (w.put i r).payloads = w.payloads ∨ w.site.policy = .echo)
      (hentered : ∀ j, i ≠ j → r.2.hub.entered j = w.site.hub.entered j) :
      w.Traffic (.turn (.owner i first)) (w.put i r) := by
    refine .quiet hsite ?_ (hidly hkept hbefore) hread fun j hj => ?_
    · rw [hunderway, hlater]
      refine (congrArg _ ?_).trans (Function.update_eq_self _ _)
      exact (underway_owner hconn).trans hbefore |>.symm
    · have hij : i ≠ j := fun hij => hj first (by rw [hij])
      refine ⟨hentered j hij, ?_⟩
      rw [payloads_put hconn, Function.update_of_ne (Ne.symm hij)]
  cases Conn.ownerStep_act hsound.distinct (fun send howner => (hechoes i c send hconn howner).2)
    hstep with
  | dropped hdropped hdrop =>
      rw [hdrop]
      exact traffic_drop true hconn hrecorded nofun (by simp [returning, pursued, hconn, hdropped])
  | act hkept hact hfree hsilent hread =>
      exact traffic_act (underway_owner hconn ▸ hact) hunderway (hpursued hkept)
        (payloads_put_same hconn hread)
  | echo hkept send message howner hpolicy hsends htarget hparcel hread hsite hentered =>
      refine hquiet hkept (by rw [howner]; rfl) (by rw [hsends]; rfl) hsite (.inr hpolicy) ?_
      intro j hij
      rw [hentered, Send.count_reached_elsewhere (htarget ▸ hij), List.replicate_zero,
        List.append_nil]
  | echoed hkept send howner hfate hrests hsite hentered =>
      refine hquiet hkept (by rw [howner]; rfl) hrests.idle hsite
        (.inl (payloads_put_same hconn hrests.read)) fun j hij => ?_
      obtain ⟨htarget, _, _, hresumed⟩ := send.resume_spec w.site.hub w.site.now
      obtain ⟨n, hnew, hcount⟩ := hresumed j
      have helsewhere : (send.resume w.site.hub w.site.now).1.target ≠ j := by
        rwa [htarget, (hechoes i c send hconn howner).1]
      rw [Send.count_reached_elsewhere helsewhere] at hcount
      obtain rfl : n = 0 := by omega
      rw [hentered, hnew, List.replicate_zero, List.append_nil]
  | relay hkept b message hidle hbegun hread hsite howner hpolicy =>
      rw [hbegun] at hunderway
      refine .begins (.owner i) b _ ((underway_owner hconn).trans hidle) hsite hunderway
        (hidly hkept hidle) (.relay i message rfl rfl ?_ hpolicy)
      rw [payloads_put hconn, hread, payloads_conn hconn]
  | farewell hkept reason howner hrests hsite hentered =>
      refine hquiet hkept (by rw [howner]; rfl) hrests.idle hsite
        (.inl (payloads_put_same hconn hrests.read)) fun j hij => ?_
      rw [hentered, Hub.entered_trySend]
      simp [hij]

theorem traffic_operate (hdistinct : w.site.hub.registered.Nodup) (hstep : w.operate = some w') :
    w.Traffic .operate w' := by
  have hact (hconns : w'.conns = w.conns)
      (hact : w.site.Act w'.site w.operator.broadcast? w'.operator.broadcast?) :
      w.Traffic .operate w' := by
    refine traffic_act (k := .operator) hact ?_ rfl ?_
    · funext k
      cases k <;> simp [underway, hconns, Function.update]
    · funext i
      simp [payloads, hconns]
  unfold operate at hstep
  split at hstep
  case h_1 wakesAt hoperator =>
    split at hstep
    · cases hstep
      exact hact rfl (by rw [hoperator]; exact .quiet (.refl _))
    · cases hstep
  case h_2 a hoperator =>
    have hstepped := a.act_step w.site hdistinct
    split at hstep
    · cases hstep
    case h_2 a' site heq =>
      cases hstep
      rw [heq] at hstepped
      exact hact rfl (by rw [hoperator]; exact hstepped)
    case h_3 result site heq =>
      cases hstep
      rw [heq] at hstepped
      exact hact rfl (by rw [hoperator]; exact hstepped)
  case h_3 b hoperator =>
    have hpursued := w.site.act_pursueBroadcast b hdistinct
    split at hstep
    · cases hstep
    case h_2 b' site heq =>
      cases hstep
      rw [heq] at hpursued
      exact hact rfl (by rw [hoperator]; exact hpursued)
    case h_3 result site heq =>
      cases hstep
      rw [heq] at hpursued
      exact hact rfl (by rw [hoperator]; exact hpursued)
  case h_4 d hoperator =>
    split at hstep
    · split at hstep
      all_goals
        cases hstep
        exact hact rfl (by rw [hoperator]; exact .quiet (.refl _))
    · cases hstep
  case h_5 => cases hstep

theorem traffic_take (what : Order) (hfree : w.operator.isFree = true) :
    w.Traffic (.order what) (w.take what) := by
  have hidle : w.operator.broadcast? = none := by
    cases hoperator : w.operator <;> simp_all [Operator.isFree, Operator.broadcast?]
  have hoperator (operator : Operator) (site : Instance) :
      underway { w with operator, site } =
        Function.update w.underway .operator operator.broadcast? := by
    funext k
    cases k <;> simp [underway, Function.update]
  have hquiet (operator : Operator) (site : Instance) (hstays : operator.broadcast? = none)
      (hsite : w.site.Silent site) : w.Traffic (.order what) { w with operator, site } := by
    refine .of_silent hsite ?_ rfl rfl
    rw [hoperator, hstays, ← hidle]
    exact Function.update_eq_self Sender.operator w.underway
  cases what with
  | sleep millis => exact hquiet _ _ rfl (.refl _)
  | broadcast message =>
      exact .begins .operator _ _ hidle (Instance.begins_beginBroadcast w.site .order message)
        (hoperator _ _) rfl (.order message rfl rfl rfl)
  | announce => exact hquiet _ _ rfl (.refl _)
  | shutdown limit pace => exact hquiet _ _ rfl (.of_hub (.closeAll _) (Hub.entered_closeAll _))

theorem traffic_connect (user : String) (input : Input) (output : Output) :
    w.Traffic (.connect user input output) (w.connect user input output).2 := by
  refine .of_silent (.of_hub (.connect w.site.hub user w.site.buffer) (Hub.entered_connect _ _ _))
    ?_ rfl ?_
  · funext k
    cases k with
    | owner i =>
        exact view_append w.conns _ (fun seen => seen.bind fun c => c.owner.broadcast?) rfl i
    | cleanup i =>
        exact view_append w.conns _ (fun seen => seen.bind fun c => c.cleanup.broadcast?) rfl i
    | operator => rfl
  · funext i
    exact view_append w.conns _ (fun seen => (seen.map Conn.payloads).getD []) rfl i

/-- Every event that can happen is traffic. -/
theorem traffic_after (hsound : w.Sound orphans) (hechoes : w.Echoes)
    (hafter : w.after e = some w') : w.Traffic e w' := by
  cases e with
  | turn task =>
      cases task with
      | owner i first =>
          obtain ⟨c, r, hconn, hstep, rfl⟩ := put_eq_of_step hafter
          exact traffic_owner hsound hechoes hconn hstep
      | writer i =>
          obtain ⟨c, r, hconn, hstep, rfl⟩ := put_eq_of_step hafter
          obtain ⟨hsilent, howner, hcleanup, hread⟩ := Conn.writerStep_silent hstep
          have hunderway := underway_put_owner hconn (r := r) (by rw [hcleanup])
          refine .of_silent hsilent ?_ rfl
            (payloads_put_same hconn (by simp [Conn.payloads, hread]))
          rw [hunderway, howner, ← underway_owner hconn, Function.update_eq_self]
      | cleanup i =>
          obtain ⟨c, r, hconn, hstep, rfl⟩ := put_eq_of_step hafter
          obtain ⟨hact, howner, hread⟩ := Conn.cleanupStep_act hsound.distinct hstep
          exact traffic_act (underway_cleanup hconn ▸ hact) (underway_put_cleanup hconn howner) rfl
            (payloads_put_same hconn hread)
  | operate => exact traffic_operate hsound.distinct hafter
  | pass millis =>
      cases hafter
      exact traffic_site ⟨⟨.refl _, rfl, rfl⟩, rfl⟩ rfl
  | connect user input output =>
      cases hafter
      exact traffic_connect user input output
  | arrive i arrivals =>
      cases hafter
      unfold arrive
      split
      · exact traffic_mapConn i (fun _ => rfl) (fun _ => rfl) (fun _ => rfl) rfl
      · exact traffic_site (.refl _) rfl
  | endInput i =>
      cases hafter
      exact traffic_mapConn i (fun _ => rfl) (fun _ => rfl) (fun _ => rfl) rfl
  | setOutput i mode change =>
      cases hafter
      exact traffic_mapConn i (fun _ => rfl) (fun _ => rfl) (fun _ => rfl) rfl
  | abort i =>
      cases hafter
      exact traffic_mapConn i (fun _ => rfl) (fun _ => rfl) (fun _ => rfl) rfl
  | orphan i =>
      cases hafter
      unfold orphan
      split
      case h_1 c hconn =>
        exact traffic_drop false hconn (hsound.conns i c hconn).recorded (fun _ => rfl) rfl
      case h_2 => exact traffic_site (.refl _) rfl
  | setGate gate =>
      cases hafter
      exact traffic_site ⟨⟨.refl _, rfl, rfl⟩, rfl⟩ rfl
  | close i =>
      cases hafter
      unfold close
      split
      case isTrue hregistered =>
        exact traffic_site
          (.of_hub (.close (List.contains_iff_mem.mp hregistered)) (Hub.entered_close _ i)) rfl
      case isFalse => exact traffic_site (.refl _) rfl
  | remove i =>
      cases hafter
      exact traffic_site (.of_hub (.remove w.site.hub i) rfl) rfl
  | closeAll =>
      cases hafter
      exact traffic_site (.of_hub (.closeAll _) (Hub.entered_closeAll _)) rfl
  | order what =>
      simp only [after] at hafter
      split at hafter
      case isTrue hfree =>
        cases hafter
        exact traffic_take what hfree
      case isFalse => cases hafter

theorem Echoes.of_after (hechoes : w.Echoes) (hsound : w.Sound orphans)
    (hafter : w.after e = some w') : w'.Echoes := by
  intro i c' send hc' howner
  have hadvance := after_advance hafter
  cases hconn : w.conns[i]? with
  | none =>
      obtain ⟨input, output, rfl⟩ := hadvance.newcomer hconn hc'
      cases howner
  | some c =>
      obtain ⟨d, hd, hfate⟩ := hadvance.fate hconn
      obtain rfl : d = c' := Option.some.inj (hd.symm.trans hc')
      cases hfate with
      | aside hsame => exact hechoes i c send hconn (hsame ▸ howner)
      | owner hevent =>
          subst hevent
          obtain ⟨r, hstep, rfl, hconn'⟩ := put_eq_of_turn hconn hafter
          obtain rfl : r.1 = d := Option.some.inj (hconn'.symm.trans hc')
          cases Conn.ownerStep_act hsound.distinct
            (fun send howner => (hechoes i c send hconn howner).2) hstep with
          | dropped _ hdrop =>
              rw [hdrop, (c.drop_move i w.site true).aborted] at howner
              cases howner
          | act _ _ _ hsilent => exact absurd howner (hsilent send)
          | echo _ sent message _ _ hsends htarget hparcel =>
              rw [hsends] at howner
              cases howner
              exact ⟨htarget, congrArg Parcel.origin hparcel⟩
          | echoed _ _ _ _ hrests => exact absurd howner (hrests.silent send)
          | relay _ b _ _ hbegun =>
              rw [hbegun] at howner
              cases howner
          | farewell _ _ _ hrests => exact absurd howner (hrests.silent send)
      | cleanup _ hmove => exact hechoes i c send hconn (hmove.owner_eq ▸ howner)
      | orphan _ hmove =>
          rw [hmove.aborted] at howner
          cases howner

/-- A broadcast that carries one parcel to distinct targets, under a number that was given out. It
is in the channels of those it has reached, and a relayed parcel is relayed by its own sender. -/
structure Carried (w : World) (k : Sender) (b : Broadcast) (parcel : Parcel) (n : Nat) : Prop where
  carries : b.Carries parcel
  number : parcel.origin.broadcast? = some n
  given : n < w.site.hub.broadcasts
  distinct : b.targets.Nodup
  arrived : ∀ i ∈ b.reached, parcel ∈ w.site.hub.entered i
  relayed : ∀ m i, parcel.origin = .relay m i → k = .owner i

structure Posted (w : World) : Prop where
  underway : ∀ k b, w.underway k = some b → ∃ parcel n, w.Carried k b parcel n
  entered : ∀ i, ∀ parcel ∈ w.site.hub.entered i, ∀ n, parcel.origin.broadcast? = some n →
    n < w.site.hub.broadcasts

/-- A broadcast begins under the next number. -/
theorem Cause.number {k : Sender} {parcel : Parcel} (hcause : w.Cause k parcel w') :
    parcel.origin.broadcast? = some w.site.hub.broadcasts := by
  cases hcause with
  | announcement hparcel => rw [hparcel]; rfl
  | relay i message hsender hparcel => rw [hparcel]; rfl
  | order message hsender hparcel => rw [hparcel]; rfl

theorem Cause.relayed {k : Sender} {parcel : Parcel} (hcause : w.Cause k parcel w') {m i : Nat}
    (horigin : parcel.origin = .relay m i) : k = .owner i := by
  cases hcause with
  | announcement hparcel => simp [hparcel, Instance.announcement] at horigin
  | relay j message hsender hparcel =>
      rw [hparcel] at horigin
      cases horigin
      exact hsender
  | order message hsender hparcel => simp [hparcel] at horigin

theorem Traffic.broadcasts_le (htraffic : w.Traffic e w') :
    w.site.hub.broadcasts ≤ w'.site.hub.broadcasts := by
  cases htraffic with
  | quiet hsite => exact Nat.le_of_eq hsite.hub.broadcasts.symm
  | begins k b parcel hidle hsite =>
      rw [hsite.hub.broadcasts]
      exact Nat.le_succ _
  | goesOn k b b' hbefore hsite => exact Nat.le_of_eq hsite.hub.broadcasts.symm
  | settles k b hbefore hsite => exact Nat.le_of_eq hsite.hub.broadcasts.symm
  | givesUp i b c runtime hconn hbefore hdrop hruntime hsite =>
      exact Nat.le_of_eq hsite.hub.broadcasts.symm

theorem Traffic.policy (htraffic : w.Traffic e w') : w'.site.policy = w.site.policy := by
  cases htraffic with
  | quiet hsite => exact hsite.policy
  | begins k b parcel hidle hsite => exact hsite.policy
  | goesOn k b b' hbefore hsite => exact hsite.policy
  | settles k b hbefore hsite => exact hsite.policy
  | givesUp i b c runtime hconn hbefore hdrop hruntime hsite => exact hsite.policy

/-- A broadcast under way was under way before, or goes on, or has just begun. -/
theorem Traffic.source (htraffic : w.Traffic e w') {k : Sender} {b : Broadcast}
    (hlater : w'.underway k = some b) :
    w.underway k = some b ∨
      (∃ before, w.underway k = some before ∧ w.site.Only (before.GoesOn b) w'.site) ∨
        ∃ parcel, w.site.Only (b.Begins parcel) w'.site ∧ w.Cause k parcel w' ∧
          w'.underway = Function.update w.underway k (some b) := by
  cases htraffic with
  | quiet hsite hunderway => exact .inl (hunderway ▸ hlater)
  | begins k₀ b₀ parcel hidle hsite hunderway hreturning hcause =>
      by_cases hk : k = k₀
      · subst hk
        obtain rfl : b₀ = b := by simpa [hunderway] using hlater
        exact .inr (.inr ⟨parcel, hsite, hcause, hunderway⟩)
      · exact .inl (by rwa [hunderway, Function.update_of_ne hk] at hlater)
  | goesOn k₀ b₀ b₁ hbefore hsite hunderway =>
      by_cases hk : k = k₀
      · subst hk
        obtain rfl : b₁ = b := by simpa [hunderway] using hlater
        exact .inr (.inl ⟨b₀, hbefore, hsite⟩)
      · exact .inl (by rwa [hunderway, Function.update_of_ne hk] at hlater)
  | settles k₀ b₀ hbefore hsite hunderway =>
      rw [hunderway] at hlater
      by_cases hk : k = k₀
      · simp [hk] at hlater
      · exact .inl (by rwa [Function.update_of_ne hk] at hlater)
  | givesUp i b₀ c runtime hconn hbefore hdrop hruntime hsite hunderway =>
      rw [hunderway] at hlater
      by_cases hk : k = .owner i
      · simp [hk] at hlater
      · exact .inl (by rwa [Function.update_of_ne hk] at hlater)

/-- What has entered a channel stays entered, and what is new comes after it. -/
theorem Traffic.entered_append (htraffic : w.Traffic e w') (hposted : w.Posted) (i : Nat) :
    ∃ new, w'.site.hub.entered i = w.site.hub.entered i ++ new := by
  have hquiet (hsite : w.site.Quiet w'.site) :
      ∃ new, w'.site.hub.entered i = w.site.hub.entered i ++ new := by
    obtain ⟨own, hown, _⟩ := hsite.hub.entered i
    exact ⟨own, hown⟩
  cases htraffic with
  | quiet hsite => exact hquiet hsite
  | begins k b p hidle hsite => exact ⟨_, hsite.hub.entered i⟩
  | goesOn k b b' hbefore hsite =>
      obtain ⟨p, n, hcarried⟩ := hposted.underway k b hbefore
      obtain ⟨count, hentered, _⟩ := hsite.hub.entered p hcarried.carries i
      exact ⟨_, hentered⟩
  | settles k b hbefore hsite => exact ⟨[], by rw [hsite.hub.entered, List.append_nil]⟩
  | givesUp j b c runtime hconn hbefore hdrop hruntime hsite => exact hquiet hsite

/-- What has entered a channel stays in its history. -/
theorem Traffic.entered_mono (htraffic : w.Traffic e w') (hposted : w.Posted) {i : Nat}
    {parcel : Parcel} (hin : parcel ∈ w.site.hub.entered i) : parcel ∈ w'.site.hub.entered i := by
  obtain ⟨new, hentered⟩ := htraffic.entered_append hposted i
  rw [hentered]
  exact List.mem_append_left new hin

namespace Carried

variable {k : Sender} {b b' : Broadcast} {parcel : Parcel} {n : Nat}

theorem later (hcarried : w.Carried k b parcel n) (htraffic : w.Traffic e w') (hposted : w.Posted) :
    w'.Carried k b parcel n where
  carries := hcarried.carries
  number := hcarried.number
  given := Nat.lt_of_lt_of_le hcarried.given htraffic.broadcasts_le
  distinct := hcarried.distinct
  arrived i hi := htraffic.entered_mono hposted (hcarried.arrived i hi)
  relayed := hcarried.relayed

theorem goesOn (hcarried : w.Carried k b parcel n) (hsite : w.site.Only (b.GoesOn b') w'.site) :
    w'.Carried k b' parcel n where
  carries := hsite.hub.carries parcel hcarried.carries
  number := hcarried.number
  given := by
    rw [hsite.hub.broadcasts]
    exact hcarried.given
  distinct := by
    rw [hsite.hub.targets]
    exact hcarried.distinct
  arrived i hi := by
    obtain ⟨m, hentered, hcount⟩ := hsite.hub.entered parcel hcarried.carries i
    rw [hentered]
    by_cases hbefore : i ∈ b.reached
    · exact List.mem_append_left _ (hcarried.arrived i hbefore)
    · have hsent : m = b'.reached.count i := by simp [hcount, List.count_eq_zero.mpr hbefore]
      have hpositive : m ≠ 0 := by
        rw [hsent]
        exact fun hnone => List.count_eq_zero.mp hnone hi
      exact List.mem_append_right _ (List.mem_replicate.mpr ⟨hpositive, rfl⟩)
  relayed := hcarried.relayed

theorem begins (hdistinct : w.site.hub.registered.Nodup)
    (hsite : w.site.Only (b.Begins parcel) w'.site)
    (hcause : w.Cause k parcel w') : w'.Carried k b parcel w.site.hub.broadcasts where
  carries := hsite.hub.carries
  number := hcause.number
  given := by
    rw [hsite.hub.broadcasts]
    exact Nat.lt_succ_self _
  distinct := by
    rw [hsite.hub.targets]
    exact hdistinct
  arrived i hi := by
    have hpositive : b.reached.count i ≠ 0 := fun hnone => List.count_eq_zero.mp hnone hi
    rw [hsite.hub.entered]
    exact List.mem_append_right _ (List.mem_replicate.mpr ⟨hpositive, rfl⟩)
  relayed _ _ := hcause.relayed

end Carried

theorem Posted.of_traffic (hposted : w.Posted) (hdistinct : w.site.hub.registered.Nodup)
    (htraffic : w.Traffic e w') : w'.Posted := by
  have hgiven := htraffic.broadcasts_le
  have hold {i : Nat} {parcel : Parcel} (hin : parcel ∈ w.site.hub.entered i) {n : Nat}
      (hnumber : parcel.origin.broadcast? = some n) : n < w'.site.hub.broadcasts :=
    Nat.lt_of_lt_of_le (hposted.entered i parcel hin n hnumber) hgiven
  have hquiet (hsite : w.site.Quiet w'.site) (i : Nat) (parcel : Parcel)
      (hin : parcel ∈ w'.site.hub.entered i) (n : Nat)
      (hnumber : parcel.origin.broadcast? = some n) : n < w'.site.hub.broadcasts := by
    obtain ⟨own, hown, hnone⟩ := hsite.hub.entered i
    rw [hown] at hin
    rcases List.mem_append.mp hin with hbefore | hnew
    · exact hold hbefore hnumber
    · simp [hnone parcel hnew] at hnumber
  refine ⟨fun k b hk => ?_, ?_⟩
  · rcases htraffic.source hk with hsame | ⟨before, hbefore, hsite⟩ | ⟨parcel, hsite, hcause, _⟩
    · obtain ⟨parcel, n, hcarried⟩ := hposted.underway k b hsame
      exact ⟨parcel, n, hcarried.later htraffic hposted⟩
    · obtain ⟨parcel, n, hcarried⟩ := hposted.underway k before hbefore
      exact ⟨parcel, n, hcarried.goesOn hsite⟩
    · exact ⟨parcel, _, .begins hdistinct hsite hcause⟩
  · cases htraffic with
    | quiet hsite => exact hquiet hsite
    | begins k b parcel hidle hsite hunderway hreturning hcause =>
        intro i other hin n hnumber
        rw [hsite.hub.entered] at hin
        rcases List.mem_append.mp hin with hbefore | hnew
        · exact hold hbefore hnumber
        · rw [List.eq_of_mem_replicate hnew, hcause.number] at hnumber
          cases hnumber
          rw [hsite.hub.broadcasts]
          exact Nat.lt_succ_self _
    | goesOn k b b' hbefore hsite =>
        intro i other hin n hnumber
        obtain ⟨parcel, m, hcarried⟩ := hposted.underway k b hbefore
        obtain ⟨count, hentered, _⟩ := hsite.hub.entered parcel hcarried.carries i
        rw [hentered] at hin
        rcases List.mem_append.mp hin with hbefore | hnew
        · exact hold hbefore hnumber
        · rw [List.eq_of_mem_replicate hnew, hcarried.number] at hnumber
          cases hnumber
          exact Nat.lt_of_lt_of_le hcarried.given hgiven
    | settles k b hbefore hsite =>
        intro i other hin n hnumber
        rw [hsite.hub.entered] at hin
        exact hold hin hnumber
    | givesUp i b c runtime hconn hbefore hdrop hruntime hsite => exact hquiet hsite

/-- What every world that a run reaches has. -/
structure Regular (orphans : Prop) (w : World) : Prop where
  sound : w.Sound orphans
  echoes : w.Echoes
  posted : w.Posted

theorem regular_create (orphans : Prop) (policy : MessagePolicy) (buffer sendTimeout : Nat) :
    (create (Instance.create policy buffer sendTimeout)).Regular orphans where
  sound := sound_create orphans policy buffer sendTimeout
  echoes i c send hconn := by simp [create] at hconn
  posted := by
    refine ⟨fun k b hk => ?_, fun i parcel hin => ?_⟩
    · cases k <;> simp [create, World.underway, Operator.broadcast?] at hk
    · simp [create, Instance.create, Hub.create, Hub.entered] at hin

theorem Regular.traffic (hregular : w.Regular orphans) (hafter : w.after e = some w') :
    w.Traffic e w' := traffic_after hregular.sound hregular.echoes hafter

/-- What is known of a world that a run reaches survives every event. -/
theorem Regular.of_after (hregular : w.Regular orphans) (horphans : ∀ i, e = .orphan i → orphans)
    (hafter : w.after e = some w') : w'.Regular orphans where
  sound := hregular.sound.of_advance horphans (after_advance hafter)
  echoes := hregular.echoes.of_after hregular.sound hafter
  posted := hregular.posted.of_traffic hregular.sound.distinct (hregular.traffic hafter)

end World

theorem Run.regular {may : Event → Prop} {orphans : Prop} {v w : World} (run : Run may v w)
    (horphans : ∀ i, may (.orphan i) → orphans) (hregular : v.Regular orphans) :
    w.Regular orphans :=
  run.invariant (fun _ _ _ hmay hafter hbefore =>
    hbefore.of_after (fun i he => horphans i (he ▸ hmay)) hafter) hregular

end Rollcall.Session
