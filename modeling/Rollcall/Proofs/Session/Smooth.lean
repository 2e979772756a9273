import Rollcall.Proofs.Session.Cleanup

/-!
Runs in which the store keeps up.

In a smooth run every call to the store takes effect, at once or after a while, and tasks can be
started. Then every leave that was asked for takes effect before its cleanup goes on
(`Run.smooth`).
-/

namespace Rollcall.Presence

/-- Whether a call that starts now takes effect. -/
def Gate.isOpen : Gate → Bool
  | .up => true
  | .slow _ => true
  | .down => false
  | .hung => false

end Rollcall.Presence

namespace Rollcall.Session

open Connection

namespace Event

/-- Whether this leaves the store open and tasks able to start. -/
def isSmooth : Event → Bool
  | .setGate gate => gate.isOpen
  | e => e.insideRuntime

def isOrder : Event → Bool
  | .order _ => true
  | _ => false

end Event

/-- A call that returns and takes effect. -/
structure StoreCall.Succeeds (call : StoreCall) : Prop where
  due : call.due.isSome = true
  passed : call.passed = .ok ()

/-- While the store is open, every call made to it succeeds. -/
theorem Instance.callStore_succeeds {s : Instance} (hopen : s.presence.gate.isOpen = true) :
    s.callStore.Succeeds := by
  unfold Instance.callStore Presence.Service.start
  cases hgate : s.presence.gate with
  | up => exact ⟨rfl, rfl⟩
  | slow wait => exact ⟨rfl, rfl⟩
  | down => simp [hgate, Presence.Gate.isOpen] at hopen
  | hung => simp [hgate, Presence.Gate.isOpen] at hopen

/-- The calls of a cleanup succeed, and it goes on past the leave only when this has taken
effect. -/
structure Conn.Smooth (c : Conn) : Prop where
  leaving : ∀ call, c.cleanup = .leaving call → call.Succeeds
  counting : ∀ call, c.cleanup = .announcing (.counting call) → call.Succeeds
  left : (c.cleanup = .done ∨ ∃ a, c.cleanup = .announcing a) → .joined ∈ c.deeds → .left ∈ c.deeds

structure World.Smooth (w : World) : Prop where
  gate : w.site.presence.gate.isOpen = true
  conns : ∀ (i : Nat) (c : Conn), w.conns[i]? = some c → c.Smooth

section Steps

variable {orphans : Prop} {i : Nat} {c c' : Conn} {s : Instance} {r : Conn × Instance}

theorem Conn.Smooth.of_keeps (hsmooth : c.Smooth) (hcleanup : c'.cleanup = c.cleanup)
    (hdeeds : c'.deeds = c.deeds) : c'.Smooth := by
  obtain ⟨hleaving, hcounting, hleft⟩ := hsmooth
  exact ⟨hcleanup ▸ hleaving, hcleanup ▸ hcounting, hcleanup ▸ hdeeds ▸ hleft⟩

/-- Before its cleanup has begun there is nothing to ask of a connection. -/
theorem Conn.smooth_of_early
    (hearly : c.cleanup = .absent ∨ ∃ registered, c.cleanup = .ready registered) :
    c.Smooth := by
  rcases hearly with habsent | ⟨registered, hready⟩
  · exact ⟨by simp [habsent], by simp [habsent], by simp [habsent]⟩
  · exact ⟨by simp [hready], by simp [hready], by simp [hready]⟩

theorem Conn.Smooth.of_drop (hsmooth : c.Smooth) (hmove : DropMove i c s true r) : r.1.Smooth := by
  cases hmove with
  | unpolled => exact hsmooth.of_keeps rfl rfl
  | undo => exact Conn.smooth_of_early (.inr ⟨false, rfl⟩)
  | late => exact hsmooth.of_keeps rfl rfl

theorem Conn.Smooth.of_owner (hsmooth : c.Smooth) (hrecorded : c.Recorded orphans)
    (hmove : OwnerMove i c s r) : r.1.Smooth := by
  cases hmove with
  | drop => exact hsmooth.of_drop (c.drop_move i s true)
  | start howner => exact Conn.smooth_of_early (.inl (hrecorded.of_unborn howner).1)
  | join call score presence howner =>
      exact Conn.smooth_of_early (.inl (hrecorded.of_joining howner).1)
  | miss => exact hsmooth.of_keeps rfl rfl
  | work c' s' hopen hstays hkeeps => exact hsmooth.of_keeps hkeeps.cleanup hkeeps.deeds
  | finish c' s' reason hopen hkeeps howner hcleanup =>
      exact Conn.smooth_of_early (.inr ⟨true, hcleanup⟩)
  | part => exact hsmooth.of_keeps rfl rfl
  | stop => exact hsmooth.of_keeps rfl rfl

theorem Conn.smooth_announceEnd (hopen : s.presence.gate.isOpen = true)
    (hleft : .joined ∈ c.deeds → .left ∈ c.deeds) : (c.announceEnd s).Smooth := by
  unfold Conn.announceEnd
  split
  · exact ⟨by simp, by simp, fun _ => hleft⟩
  · refine ⟨by simp [Conn.note], fun call hcounts => ?_, fun _ hjoined => ?_⟩
    · have hcall : s.callStore = call := by
        simpa [Conn.note, Announcement.start] using hcounts
      exact hcall ▸ Instance.callStore_succeeds hopen
    · simpa [Conn.note] using hleft (by simpa [Conn.note] using hjoined)

theorem Conn.Smooth.of_cleanup (hsmooth : c.Smooth) (hrecorded : c.Recorded orphans)
    (hopen : s.presence.gate.isOpen = true) (hmove : CleanupMove i c s r) : r.1.Smooth := by
  cases hmove with
  | leave registered hcleanup hjoined =>
      have hgate : (c.undo registered i s).2.presence.gate = s.presence.gate :=
        (c.others_undo registered i s).gate
      refine ⟨fun call hleaving => ?_, by simp [Conn.note], fun hlate => ?_⟩
      · have hcall : (c.undo registered i s).2.callStore = call := by
          simpa [Conn.note] using hleaving
        exact hcall ▸ Instance.callStore_succeeds (hgate ▸ hopen)
      · simp [Conn.note] at hlate
  | skip registered hcleanup hjoined =>
      have hgate : (c.undo registered i s).2.presence.gate = s.presence.gate :=
        (c.others_undo registered i s).gate
      refine Conn.smooth_announceEnd (hgate ▸ hopen) fun hjoin => ?_
      have hdeeds := (hrecorded.of_ready hcleanup).2
      rw [hjoined] at hdeeds
      cases registered <;>
        simp [Conn.undo, Conn.deregister, Conn.note, hdeeds, openingDeeds, closingDeeds] at hjoin
  | left call score presence hcleanup hdue hpassed hfinish =>
      exact Conn.smooth_announceEnd ((Instance.finishLeave_ledger hfinish).1 ▸ hopen)
        fun _ => by simp [Conn.note]
  | fail call failure presence hcleanup hdue hpassed =>
      -- the calls of a smooth cleanup do not fail
      have hnever := (hsmooth.leaving call hcleanup).passed
      simp [hpassed] at hnever
  | announce a b s' hcleanup =>
      exact ⟨by simp, by simp, fun _ => hsmooth.left (.inr ⟨a, hcleanup⟩)⟩
  | done a s' hcleanup =>
      exact ⟨by simp, by simp, fun _ => hsmooth.left (.inr ⟨a, hcleanup⟩)⟩

/-- Smooth events keep a connection smooth. -/
theorem Fate.smooth {w w' : World} {e : Event} (hfate : Fate i c w w' e c') (hsmooth : c.Smooth)
    (hrecorded : c.Recorded orphans) (hopen : w.site.presence.gate.isOpen = true)
    (hevent : e.isSmooth = true) : c'.Smooth := by
  cases hfate with
  | aside howner hkeeps => exact hsmooth.of_keeps hkeeps.cleanup hkeeps.deeds
  | owner _ hmove => exact hsmooth.of_owner hrecorded hmove
  | cleanup _ hmove => exact hsmooth.of_cleanup hrecorded hopen hmove
  | orphan horphan =>
      rw [horphan] at hevent
      cases hevent

end Steps

theorem World.smooth_create (policy : MessagePolicy) (buffer sendTimeout : Nat) :
    (create (Instance.create policy buffer sendTimeout)).Smooth where
  gate := rfl
  conns _ _ hconn := by simp [create] at hconn

/-- A smooth event keeps a world smooth. -/
theorem World.Smooth.of_after {orphans : Prop} {w w' : World} {e : Event} (hsmooth : w.Smooth)
    (hsound : w.Sound orphans) (hevent : e.isSmooth = true) (hafter : w.after e = some w') :
    w'.Smooth where
  gate := by
    rcases (switches_after hafter).1 with hsame | hset
    · exact hsame ▸ hsmooth.gate
    · rw [hset] at hevent
      exact hevent
  conns i c' hc' := by
    have hadvance := after_advance hafter
    cases hconn : w.conns[i]? with
    | none =>
        obtain ⟨input, output, rfl⟩ := hadvance.newcomer hconn hc'
        exact Conn.smooth_of_early (.inl rfl)
    | some c =>
        obtain ⟨d, hd, hfate⟩ := hadvance.fate hconn
        obtain rfl : d = c' := Option.some.inj (hd.symm.trans hc')
        exact hfate.smooth (hsmooth.conns i c hconn) (hsound.conns i c hconn).recorded hsmooth.gate
          hevent

/-- Smooth runs keep a world smooth and its connections sound. -/
theorem Run.smooth {may : Event → Prop} {v w : World} (run : Run may v w)
    (hmay : ∀ e, may e → e.isSmooth = true) (hsound : v.Sound False) (hsmooth : v.Smooth) :
    w.Sound False ∧ w.Smooth := by
  have hkept (e : Event) (u u' : World) (he : may e) (hafter : u.after e = some u')
      (hbefore : u.Sound False ∧ u.Smooth) : u'.Sound False ∧ u'.Smooth := by
    refine ⟨hbefore.1.of_advance (fun i horphan => ?_) (World.after_advance hafter),
      hbefore.2.of_after hbefore.1 (hmay e he) hafter⟩
    have hnever := hmay e he
    rw [horphan] at hnever
    cases hnever
  exact run.invariant hkept ⟨hsound, hsmooth⟩

end Rollcall.Session
