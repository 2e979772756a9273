import Rollcall.Proofs.Session.Sound

/-!
What an event does to a world.

Each event is a move of one connection's task, a change at the edge of one connection, a new
connection, or something that spares every connection (`Advance`). A world in which every connection
is sound stays so, hence it is sound at the end of every run (`Run.sound`).
-/

namespace Rollcall.Session

open Connection

/-- What orders, the operator, the clock and the gate are to the connections. -/
structure World.Spares (w w' : World) : Prop where
  conns : w'.conns = w.conns
  names : w'.site.hub.names = w.site.hub.names
  peers : ∀ i, Hub.Spares i w.site.hub w'.site.hub
  registered : w'.site.hub.registered.Sublist w.site.hub.registered
  shuttingDown : w.site.hub.shuttingDown = true → w'.site.hub.shuttingDown = true
  ledger : w'.site.ledger = w.site.ledger

inductive Advance (w : World) : Event → World → Prop where
  | owner {first : Branch} (i : Nat) (c : Conn) (r : Conn × Instance) (hconn : w.conns[i]? = some c)
      (hmove : OwnerMove i c w.site r) : Advance w (.turn (.owner i first)) (w.put i r)
  | writer (i : Nat) (c : Conn) (r : Conn × Instance) (hconn : w.conns[i]? = some c)
      (howner : r.1.owner = c.owner) (hkeeps : c.Keeps r.1) (hspares : w.site.Spares r.2) :
      Advance w (.turn (.writer i)) (w.put i r)
  | cleanup (i : Nat) (c : Conn) (r : Conn × Instance) (hconn : w.conns[i]? = some c)
      (hmove : CleanupMove i c w.site r) : Advance w (.turn (.cleanup i)) (w.put i r)
  | orphan (i : Nat) (c : Conn) (r : Conn × Instance) (hconn : w.conns[i]? = some c)
      (hmove : DropMove i c w.site false r) : Advance w (.orphan i) (w.put i r)
  /-- Something at the edge of connection `i`. -/
  | outside (e : Event) (i : Nat) (change : Conn → Conn)
      (howner : ∀ c, (change c).owner = c.owner) (hkeeps : ∀ c : Conn, c.Keeps (change c)) :
      Advance w e (w.mapConn i change)
  | connect (user : String) (input : Input) (output : Output) :
      Advance w (.connect user input output) (w.connect user input output).2
  | spare (e : Event) (w' : World) (hspares : w.Spares w') : Advance w e w'

namespace World

theorem Spares.of_site {w w' : World} (hconns : w'.conns = w.conns)
    (hspares : w.site.Spares w'.site) : w.Spares w' where
  conns := hconns
  names := hspares.names
  peers := hspares.peers
  registered := hspares.registered
  shuttingDown hdown := hspares.shuttingDown.trans hdown
  ledger := hspares.ledger

theorem Spares.refl (w : World) : w.Spares w := .of_site rfl (Instance.Spares.refl w.site)

/-- Asking peers to close one after another spares everyone. -/
theorem spares_closeEach (targets : List Nat) (h : Hub) (i : Nat) :
    Hub.Spares i h (targets.foldl Hub.close h) ∧
      (targets.foldl Hub.close h).registered = h.registered ∧
      (targets.foldl Hub.close h).names = h.names ∧
      (targets.foldl Hub.close h).shuttingDown = h.shuttingDown := by
  induction targets generalizing h with
  | nil => exact ⟨Hub.Spares.refl i h, rfl, rfl, rfl⟩
  | cons j rest ih =>
      obtain ⟨hspares, hregistered, hnames, hdown⟩ := ih (h.close j)
      exact ⟨(Hub.Spares.close h i j).trans hspares, hregistered,
        hnames.trans (map_modify h.peers j _ _ (fun _ => rfl)), hdown⟩

/-- From now on everyone is closing. -/
theorem shuttingDown_closeAll (h : Hub) : h.closeAll.2.shuttingDown = true :=
  (spares_closeEach h.registered { h with shuttingDown := true } 0).2.2.2

theorem spares_closeAll (w : World) (operator : Operator) :
    w.Spares { w with operator, site := { w.site with hub := w.site.hub.closeAll.2 } } := by
  have hclosing (i : Nat) := spares_closeEach w.site.hub.registered
    { w.site.hub with shuttingDown := true } i
  have hmarked (i : Nat) : Hub.Spares i w.site.hub { w.site.hub with shuttingDown := true } :=
    ⟨.inl rfl, id⟩
  exact {
    conns := rfl
    names := (hclosing 0).2.2.1
    peers := fun i => (hmarked i).trans (hclosing i).1
    registered := by simp [Hub.closeAll, (hclosing 0).2.1]
    shuttingDown := fun _ => shuttingDown_closeAll w.site.hub
    ledger := rfl }

theorem spares_take (w : World) (what : Order) : w.Spares (w.take what) := by
  cases what with
  | sleep millis => exact .of_site rfl (Instance.Spares.refl _)
  | broadcast message => exact .of_site rfl (Instance.Spares.beginBroadcast w.site .order message)
  | announce => exact .of_site rfl (Instance.Spares.refl _)
  | shutdown limit pace => exact spares_closeAll w _

/-- A turn of a task puts back the connection that took it. -/
theorem put_eq_of_step {w w' : World} {i : Nat} {step : Conn → Option (Conn × Instance)}
    (hstep : (w.conns[i]?.bind step).map (w.put i) = some w') :
    ∃ c r, w.conns[i]? = some c ∧ step c = some r ∧ w' = w.put i r := by
  simp only [Option.map_eq_some_iff, Option.bind_eq_some_iff] at hstep
  obtain ⟨r, ⟨c, hconn, hmove⟩, rfl⟩ := hstep
  exact ⟨c, r, hconn, hmove, rfl⟩

/-- A turn of one of the tasks of connection `i`, where the connection is known. -/
theorem put_eq_of_turn {w w' : World} {i : Nat} {c : Conn} {step : Conn → Option (Conn × Instance)}
    (hconn : w.conns[i]? = some c) (hstep : (w.conns[i]?.bind step).map (w.put i) = some w') :
    ∃ r, step c = some r ∧ w' = w.put i r ∧ w'.conns[i]? = some r.1 := by
  obtain ⟨d, r, hd, hmove, rfl⟩ := put_eq_of_step hstep
  obtain rfl : c = d := Option.some.inj (hconn.symm.trans hd)
  have hbound := (List.getElem?_eq_some_iff.mp hconn).1
  exact ⟨r, hmove, rfl, by simp [put, hbound]⟩

/-- Every event that can happen is an advance. -/
theorem after_advance {w w' : World} {e : Event} (hafter : w.after e = some w') :
    Advance w e w' := by
  cases e with
  | turn task =>
      cases task with
      | owner i first =>
          obtain ⟨c, r, hconn, hstep, rfl⟩ := put_eq_of_step hafter
          exact .owner i c r hconn (Conn.ownerStep_move hstep)
      | writer i =>
          obtain ⟨c, r, hconn, hstep, rfl⟩ := put_eq_of_step hafter
          obtain ⟨howner, hkeeps, hspares⟩ := Conn.writerStep_spares hstep
          exact .writer i c r hconn howner hkeeps hspares
      | cleanup i =>
          obtain ⟨c, r, hconn, hstep, rfl⟩ := put_eq_of_step hafter
          exact .cleanup i c r hconn (Conn.cleanupStep_move hstep)
  | operate =>
      obtain ⟨hconns, hspares⟩ := operate_spares hafter
      exact .spare _ _ (.of_site hconns hspares)
  | pass millis =>
      cases hafter
      exact .spare _ _ ⟨rfl, rfl, fun i => Hub.Spares.refl i _, List.Sublist.refl _, id, rfl⟩
  | connect user input output =>
      cases hafter
      exact .connect user input output
  | arrive i arrivals =>
      cases hafter
      unfold arrive
      split
      · exact .outside _ i _ (fun _ => rfl) (fun _ => ⟨rfl, rfl, rfl⟩)
      · exact .spare _ _ (Spares.refl w)
  | endInput i =>
      cases hafter
      exact .outside _ i _ (fun _ => rfl) (fun _ => ⟨rfl, rfl, rfl⟩)
  | setOutput i mode change =>
      cases hafter
      exact .outside _ i _ (fun _ => rfl) (fun _ => ⟨rfl, rfl, rfl⟩)
  | abort i =>
      cases hafter
      exact .outside _ i _ (fun _ => rfl) (fun _ => ⟨rfl, rfl, rfl⟩)
  | orphan i =>
      cases hafter
      unfold orphan
      split
      case h_1 c hconn => exact .orphan i c _ hconn (c.drop_move i w.site false)
      case h_2 => exact .spare _ _ (Spares.refl w)
  | setGate gate =>
      cases hafter
      exact .spare _ _ ⟨rfl, rfl, fun i => Hub.Spares.refl i _, List.Sublist.refl _, id, rfl⟩
  | close i =>
      cases hafter
      unfold close
      split
      · exact .spare _ _ ⟨rfl, map_modify w.site.hub.peers i _ _ (fun _ => rfl),
          fun j => Hub.Spares.close w.site.hub j i, List.Sublist.refl _, id, rfl⟩
      · exact .spare _ _ (Spares.refl w)
  | remove i =>
      cases hafter
      exact .spare _ _ ⟨rfl, rfl, fun j => Hub.Spares.remove w.site.hub j i, List.erase_sublist, id,
        rfl⟩
  | closeAll =>
      cases hafter
      exact .spare _ _ (spares_closeAll w w.operator)
  | order what =>
      simp only [after] at hafter
      split at hafter
      · cases hafter
        exact .spare _ _ (spares_take w what)
      · cases hafter

/-- Every connection is sound, and the registry knows only connections. -/
structure Sound (orphans : Prop) (w : World) : Prop where
  sizes : w.site.hub.peers.length = w.conns.length
  known : ∀ i ∈ w.site.hub.registered, i < w.conns.length
  distinct : w.site.hub.registered.Nodup
  conns : ∀ (i : Nat) (c : Conn), w.conns[i]? = some c → c.Sound orphans i w.site

theorem sound_create (orphans : Prop) (policy : MessagePolicy) (buffer sendTimeout : Nat) :
    (create (Instance.create policy buffer sendTimeout)).Sound orphans where
  sizes := rfl
  known := by simp [create, Instance.create, Hub.create]
  distinct := List.nodup_nil
  conns _ _ hconn := by simp [create] at hconn

namespace Sound

variable {orphans : Prop} {w w' : World}

theorem of_spares (hsound : w.Sound orphans) (hspares : w.Spares w') : w'.Sound orphans where
  sizes := by
    have hlength := congrArg List.length hspares.names
    simp only [Hub.names, List.length_map] at hlength
    rw [hlength, hspares.conns, hsound.sizes]
  known i hi := by
    rw [hspares.conns]
    exact hsound.known i (hspares.registered.subset hi)
  distinct := hspares.registered.nodup hsound.distinct
  conns i c hconn := (hsound.conns i c (hspares.conns ▸ hconn)).of_others (hspares.peers i)

theorem of_put {i : Nat} {r : Conn × Instance} (hsound : w.Sound orphans)
    (hbound : i < w.conns.length) (hothers : w.site.Others i r.2)
    (hconn : r.1.Sound orphans i r.2) :
    (w.put i r).Sound orphans where
  sizes := by
    have hlength := congrArg List.length hothers.names
    simp only [Hub.names, List.length_map] at hlength
    simp [put, hlength, hsound.sizes]
  known j hj := by
    simp only [put, List.length_set]
    by_cases hij : j = i
    · exact hij ▸ hbound
    · exact hsound.known j ((hothers.peers j hij).registered hj)
  distinct := hothers.distinct hsound.distinct
  conns j c hj := by
    simp only [put, List.getElem?_set] at hj
    split at hj
    case isTrue hij =>
      cases hj
      exact hij ▸ hconn
    case isFalse hij => exact (hsound.conns j c hj).of_others (hothers.peers j (Ne.symm hij))

/-- What happens to a connection from outside its tasks keeps the world sound. -/
theorem of_outside (hsound : w.Sound orphans) (i : Nat) {change : Conn → Conn}
    (howner : ∀ c, (change c).owner = c.owner) (hkeeps : ∀ c : Conn, c.Keeps (change c)) :
    (w.mapConn i change).Sound orphans where
  sizes := by simp [mapConn, hsound.sizes]
  known j hj := by simpa [mapConn] using hsound.known j hj
  distinct := hsound.distinct
  conns j c hj := by
    simp only [mapConn, List.getElem?_modify] at hj
    obtain ⟨before, hbefore, rfl⟩ := Option.map_eq_some_iff.mp hj
    have hsame := hsound.conns j before hbefore
    split
    · exact hsame.of_keeps (howner before) (hkeeps before)
    · exact hsame

theorem signal?_connect (h : Hub) (user : String) (capacity i : Nat) (hi : i < h.peers.length) :
    (h.connect user capacity).signal? i = h.signal? i := by
  simp [Hub.signal?, Hub.connect, List.getElem?_append, hi]

theorem of_connect (hsound : w.Sound orphans) (user : String) (input : Input) (output : Output) :
    (w.connect user input output).2.Sound orphans where
  sizes := by simp [connect, Instance.mapHub, Hub.connect, hsound.sizes]
  known i hi := by
    have hknown := hsound.known i hi
    simp only [connect, List.length_append, List.length_singleton]
    omega
  distinct := hsound.distinct
  conns i c hi := by
    simp only [connect, List.getElem?_append] at hi
    split at hi
    case isTrue hbound =>
      exact (hsound.conns i c hi).of_others
        ⟨.inl (signal?_connect _ user _ i (hsound.sizes ▸ hbound)), id⟩
    case isFalse hbound =>
      have hnew : i = w.conns.length ∧ c = Conn.create input output := by
        rw [List.getElem?_singleton] at hi
        split at hi
        · cases hi
          exact ⟨by omega, rfl⟩
        · cases hi
      obtain ⟨rfl, rfl⟩ := hnew
      refine ⟨.unborn rfl rfl rfl rfl, fun hregistered => ?_,
        .of_quiet (by simp [Conn.create]) fun σ hσ => ?_⟩
      · exact absurd (hsound.known _ hregistered) hbound
      · simp [connect, Instance.mapHub, Hub.connect, Hub.signal?, ← hsound.sizes] at hσ
        rw [← hσ]
        rfl

/-- Every advance keeps every connection sound. -/
theorem of_advance {e : Event} (hsound : w.Sound orphans) (horphans : ∀ i, e = .orphan i → orphans)
    (hadvance : Advance w e w') : w'.Sound orphans := by
  cases hadvance with
  | owner i c r hconn hmove =>
      exact hsound.of_put (List.getElem?_eq_some_iff.mp hconn).1 hmove.others
        ((hsound.conns i c hconn).of_owner hsound.distinct hmove)
  | writer i c r hconn howner hkeeps hspares =>
      exact hsound.of_put (List.getElem?_eq_some_iff.mp hconn).1 (hspares.aside i).toOthers
        (((hsound.conns i c hconn).of_others (hspares.peers i)).of_keeps howner hkeeps)
  | cleanup i c r hconn hmove =>
      exact hsound.of_put (List.getElem?_eq_some_iff.mp hconn).1 hmove.others
        ((hsound.conns i c hconn).of_cleanup hsound.distinct hmove)
  | orphan i c r hconn hmove =>
      exact hsound.of_put (List.getElem?_eq_some_iff.mp hconn).1 hmove.others
        ((hsound.conns i c hconn).of_drop hsound.distinct (fun _ => horphans i rfl) hmove)
  | outside e i change howner hkeeps => exact hsound.of_outside i howner hkeeps
  | connect user input output => exact hsound.of_connect user input output
  | spare e w' hspares => exact hsound.of_spares hspares

end Sound
end World

inductive Fate (i : Nat) (c : Conn) (w w' : World) (e : Event) (c' : Conn) : Prop where
  | aside (howner : c'.owner = c.owner) (hkeeps : c.Keeps c')
      (hregistered : i ∈ w'.site.hub.registered → i ∈ w.site.hub.registered)
  | owner {first : Branch} (hevent : e = .turn (.owner i first))
      (hmove : OwnerMove i c w.site (c', w'.site))
  | cleanup (hevent : e = .turn (.cleanup i)) (hmove : CleanupMove i c w.site (c', w'.site))
  | orphan (hevent : e = .orphan i) (hmove : DropMove i c w.site false (c', w'.site))

/-- Connections stay, and each meets its fate. -/
theorem Advance.fate {w w' : World} {e : Event} {i : Nat} {c : Conn} (hadvance : Advance w e w')
    (hconn : w.conns[i]? = some c) : ∃ c', w'.conns[i]? = some c' ∧ Fate i c w w' e c' := by
  have hbound := (List.getElem?_eq_some_iff.mp hconn).1
  -- a step of connection `j` is a step aside for every other one
  have hput (j : Nat) (d : Conn) (r : Conn × Instance) (hd : w.conns[j]? = some d)
      (hothers : w.site.Others j r.2) (hown : j = i → Fate i d w (w.put j r) e r.1) :
      ∃ c', (w.put j r).conns[i]? = some c' ∧ Fate i c w (w.put j r) e c' := by
    by_cases hij : j = i
    · subst hij
      obtain rfl : c = d := Option.some.inj (hconn.symm.trans hd)
      exact ⟨r.1, by simp [World.put, hbound], hown rfl⟩
    · exact ⟨c, by simp [World.put, hij, hconn],
        .aside rfl (Conn.Keeps.refl c) (hothers.peers i (Ne.symm hij)).registered⟩
  cases hadvance with
  | owner j d r hd hmove =>
      exact hput j d r hd hmove.others fun hij => .owner (by rw [hij]) (hij ▸ hmove)
  | writer j d r hd howner hkeeps hspares =>
      exact hput j d r hd (hspares.aside j).toOthers fun _ =>
        .aside howner hkeeps (hspares.peers i).registered
  | cleanup j d r hd hmove =>
      exact hput j d r hd hmove.others fun hij => .cleanup (by rw [hij]) (hij ▸ hmove)
  | orphan j d r hd hmove =>
      exact hput j d r hd hmove.others fun hij => .orphan (by rw [hij]) (hij ▸ hmove)
  | outside e j change howner hkeeps =>
      by_cases hij : j = i
      · exact ⟨change c, by simp [World.mapConn, hij, hconn],
          .aside (howner c) (hkeeps c) id⟩
      · exact ⟨c, by simp [World.mapConn, hij, hconn],
          .aside rfl (Conn.Keeps.refl c) id⟩
  | connect user input output =>
      exact ⟨c, (List.getElem?_append_left hbound).trans hconn,
        .aside rfl (Conn.Keeps.refl c) id⟩
  | spare e w' hspares =>
      exact ⟨c, hspares.conns ▸ hconn, .aside rfl (Conn.Keeps.refl c) (hspares.peers i).registered⟩

/-- A connection that was not there before was made at this event. -/
theorem Advance.connects {w w' : World} {e : Event} {i : Nat} {c' : Conn}
    (hadvance : Advance w e w') (hnew : w.conns[i]? = none) (hconn : w'.conns[i]? = some c') :
    ∃ user input output, e = .connect user input output ∧ c' = Conn.create input output := by
  have hlength := List.getElem?_eq_none_iff.mp hnew
  have hput (j : Nat) (r : Conn × Instance) (hc' : (w.put j r).conns[i]? = some c') :
      ∃ user input output, e = .connect user input output ∧ c' = Conn.create input output := by
    have hbound := (List.getElem?_eq_some_iff.mp hc').1
    simp only [World.put, List.length_set] at hbound
    omega
  cases hadvance with
  | owner j d r => exact hput j r hconn
  | writer j d r => exact hput j r hconn
  | cleanup j d r => exact hput j r hconn
  | orphan j d r => exact hput j r hconn
  | outside e j change =>
      have hbound := (List.getElem?_eq_some_iff.mp hconn).1
      simp only [World.mapConn, List.length_modify] at hbound
      omega
  | connect user input output =>
      simp only [World.connect, List.getElem?_append_right hlength, List.getElem?_singleton]
        at hconn
      split at hconn
      · cases hconn
        exact ⟨user, input, output, rfl, rfl⟩
      · cases hconn
  | spare e w' hspares =>
      rw [hspares.conns, hnew] at hconn
      cases hconn

/-- A connection that was not there before has done nothing. -/
theorem Advance.newcomer {w w' : World} {e : Event} {i : Nat} {c' : Conn}
    (hadvance : Advance w e w') (hnew : w.conns[i]? = none) (hconn : w'.conns[i]? = some c') :
    ∃ input output, c' = Conn.create input output := by
  obtain ⟨_, input, output, _, hmade⟩ := hadvance.connects hnew hconn
  exact ⟨input, output, hmade⟩

/-- A shutdown is never taken back. -/
theorem Advance.shuttingDown {w w' : World} {e : Event} (hadvance : Advance w e w')
    (hclosing : w.site.hub.shuttingDown = true) : w'.site.hub.shuttingDown = true := by
  cases hadvance with
  | owner j d r hd hmove => exact hmove.others.shuttingDown.trans hclosing
  | writer j d r hd howner hkeeps hspares => exact hspares.shuttingDown.trans hclosing
  | cleanup j d r hd hmove => exact hmove.others.shuttingDown.trans hclosing
  | orphan j d r hd hmove => exact hmove.others.shuttingDown.trans hclosing
  | outside => exact hclosing
  | connect => exact hclosing
  | spare e w' hspares => exact hspares.shuttingDown hclosing

/-- The gate is set from outside and the flag by asking everyone to close, and neither by anything
else. -/
theorem World.switches_after {w w' : World} {e : Event} (hafter : w.after e = some w') :
    (w'.site.presence.gate = w.site.presence.gate ∨ e = .setGate w'.site.presence.gate) ∧
      (w'.site.hub.shuttingDown = w.site.hub.shuttingDown ∨ e.closesAll = true) := by
  cases e with
  | turn task =>
      cases task with
      | owner i first =>
          obtain ⟨c, r, _, hstep, rfl⟩ := put_eq_of_step hafter
          have hothers := (Conn.ownerStep_move hstep).others
          exact ⟨.inl hothers.gate, .inl hothers.shuttingDown⟩
      | writer i =>
          obtain ⟨c, r, _, hstep, rfl⟩ := put_eq_of_step hafter
          have hspares := (Conn.writerStep_spares hstep).2.2
          exact ⟨.inl hspares.gate, .inl hspares.shuttingDown⟩
      | cleanup i =>
          obtain ⟨c, r, _, hstep, rfl⟩ := put_eq_of_step hafter
          have hothers := (Conn.cleanupStep_move hstep).others
          exact ⟨.inl hothers.gate, .inl hothers.shuttingDown⟩
  | operate =>
      have hspares := (operate_spares hafter).2
      exact ⟨.inl hspares.gate, .inl hspares.shuttingDown⟩
  | orphan i =>
      cases hafter
      unfold orphan
      split
      case h_1 c _ =>
        have hothers := (c.drop_move i w.site false).others
        exact ⟨.inl hothers.gate, .inl hothers.shuttingDown⟩
      case h_2 => exact ⟨.inl rfl, .inl rfl⟩
  | setGate gate =>
      cases hafter
      exact ⟨.inr rfl, .inl rfl⟩
  | closeAll =>
      cases hafter
      exact ⟨.inl rfl, .inr rfl⟩
  | order what =>
      simp only [after] at hafter
      split at hafter
      · cases hafter
        cases what with
        | broadcast message =>
            have hspares := Instance.Spares.beginBroadcast w.site .order message
            exact ⟨.inl hspares.gate, .inl hspares.shuttingDown⟩
        | shutdown limit pace => exact ⟨.inl rfl, .inr rfl⟩
        | _ => exact ⟨.inl rfl, .inl rfl⟩
      · cases hafter
  | arrive i arrivals =>
      cases hafter
      unfold arrive
      split <;> exact ⟨.inl rfl, .inl rfl⟩
  | close i =>
      cases hafter
      unfold close
      split <;> exact ⟨.inl rfl, .inl rfl⟩
  | _ =>
      cases hafter
      exact ⟨.inl rfl, .inl rfl⟩

/-- By induction on the run. -/
theorem Run.sound {may : Event → Prop} {orphans : Prop} {v w : World} (run : Run may v w)
    (horphans : ∀ i, may (.orphan i) → orphans) (hsound : v.Sound orphans) : w.Sound orphans :=
  run.invariant (fun _ _ _ hmay hafter hbefore => hbefore.of_advance
    (fun i he => horphans i (he ▸ hmay)) (World.after_advance hafter)) hsound

/-- What one connection's fate keeps at every event, where all connections are sound, it has kept at
the end of a run. -/
theorem Run.follow {may : Event → Prop} {orphans : Prop} {i : Nat} {P : Conn → World → Prop}
    (horphans : ∀ i, may (.orphan i) → orphans)
    (hstep : ∀ e u u' d d', may e → u.after e = some u' → u.Sound orphans → u.conns[i]? = some d →
      u'.conns[i]? = some d' → Fate i d u u' e d' → P d u → P d' u')
    {v w : World} (run : Run may v w) (hsound : v.Sound orphans) {c : Conn}
    (hconn : v.conns[i]? = some c) (hstart : P c v) : ∃ c', w.conns[i]? = some c' ∧ P c' w := by
  induction run with
  | refl => exact ⟨c, hconn, hstart⟩
  | step e run hmay hafter ih =>
      obtain ⟨d, hd, hkept⟩ := ih
      obtain ⟨d', hd', hfate⟩ := (World.after_advance hafter).fate hd
      exact ⟨d', hd', hstep e _ _ d d' hmay hafter (run.sound horphans hsound) hd hd' hfate hkept⟩

end Rollcall.Session
