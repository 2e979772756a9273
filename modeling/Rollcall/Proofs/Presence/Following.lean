import Mathlib.Data.List.Induction
import Rollcall.Presence.Tracker

/-!
The tracker after any history of calls.

A call fails by an error of the store or, if it is bounded, by the store's being late. What the
tracker shows follows from how the calls went (`Tracker.follows_store`): the flag from the last one,
the error counters and the online figure from all of them. The gauge of the flag is written only
where the flag changes, so that the two agree is an invariant. All that one call does is said once
(`Tracker.Noted`).
-/

namespace Rollcall

/-- A counter that is bumped grows by one, and no other does. -/
theorem Metrics.lookup_bump (key other : String) (entries : List (String × Nat)) :
    (Presence.Store.lookup other (bump key entries)).getD 0 =
      (Presence.Store.lookup other entries).getD 0 + if other = key then 1 else 0 := by
  induction entries with
  | nil => by_cases hkey : other = key <;> simp [bump, Presence.Store.lookup, hkey]
  | cons entry rest ih =>
      obtain ⟨head, n⟩ := entry
      by_cases hhead : key = head
      · subst hhead
        by_cases hkey : other = key <;> simp [bump, Presence.Store.lookup, hkey]
      · by_cases hother : other = head
        · subst hother
          simp [bump, Presence.Store.lookup, hhead, Ne.symm hhead]
        · simp [bump, Presence.Store.lookup, hhead, hother, ih]

/-- The online figure is set apart from what the store's failures show in. -/
theorem Metrics.setOnlineUsers_spec (m : Metrics) (count : Nat) :
    (m.setOnlineUsers count).storeDegraded = m.storeDegraded ∧
      (m.setOnlineUsers count).storeErrors = m.storeErrors ∧
      (m.setOnlineUsers count).onlineUsers = Int.bmod count (Nat.pow 2 64) := by
  -- the case keeps the wrapped figure from being computed
  cases m
  refine ⟨rfl, rfl, ?_⟩
  simp only [setOnlineUsers, wrapSigned]

/-- A wrapped number fits into 64 bits with a sign. -/
theorem Metrics.bmod_bounds (n : Int) :
    -(Nat.pow 2 63 : Int) ≤ Int.bmod n (Nat.pow 2 64) ∧
      Int.bmod n (Nat.pow 2 64) < (Nat.pow 2 63 : Int) := by
  have hpositive : 0 < Nat.pow 2 64 := by decide
  have hlow := Int.le_bmod (x := n) hpositive
  have hhigh := Int.bmod_lt (x := n) hpositive
  have hhalf : Nat.pow 2 64 = 2 * Nat.pow 2 63 := by decide
  omega

namespace Presence

theorem Operation.name_injective {op op' : Operation} (hname : op.name = op'.name) : op = op' := by
  cases op <;> cases op' <;> first | rfl | exact absurd hname (by decide)

inductive Value where
  | score (n : Int)
  | online (n : Nat)
  | alive
deriving DecidableEq, Repr

def Value.online? : Value → Option Nat
  | .online n => some n
  | _ => none

/-- A call of the tracker with how the store's call goes under it. The unbounded calls are over only
once the store has returned, after whatever wait. -/
inductive Call where
  | join (wait : Nat) (result : Except Failure Int)
  | leave (wait : Nat) (result : Except Failure Int)
  | count (wait : Nat) (result : Except Failure Nat)
  | reading (limit : Nat) (course : Course (Except Failure Nat))
  | ping (limit : Nat) (course : Course (Except Failure Unit))

namespace Call

def operation : Call → Operation
  | .join _ _ => .join
  | .leave _ _ => .leave
  | .count _ _ => .count
  | .reading _ _ => .count
  | .ping _ _ => .ping

/-- What the store gives within the limit of the call, if it gives anything. -/
def value? : Call → Option Value
  | .join _ (.ok score) => some (.score score)
  | .leave _ (.ok score) => some (.score score)
  | .count _ (.ok n) => some (.online n)
  | .reading limit (.returns wait (.ok n)) => if wait ≤ limit then some (.online n) else none
  | .ping limit (.returns wait (.ok ())) => if wait ≤ limit then some .alive else none
  | _ => none

def online? (call : Call) : Option Nat := call.value?.bind Value.online?

end Call

/-- The last figure that a count or a reading gave. -/
def lastOnline? (calls : List Call) : Option Nat := (calls.filterMap Call.online?).getLast?

theorem lastOnline?_concat (calls : List Call) (last : Call) :
    lastOnline? (calls ++ [last]) = last.online?.or (lastOnline? calls) := by
  rw [lastOnline?, lastOnline?, List.filterMap_append, List.getLast?_append]
  cases honline : last.online? with
  | none => simp [honline]
  | some n => simp [honline]

def Reading.value? (r : Reading) : Option Value :=
  if r.degraded then none else some (.online r.onlineUsers)

namespace Tracker

/-- A call of the tracker: the value that it yields, if any, and the tracker after it. -/
def serve (t : Tracker) : Call → Option Value × Tracker
  | .join _ result =>
      let (answer, t) := t.absorb .join result
      (answer.map .score, t)
  | .leave _ result =>
      let (answer, t) := t.absorb .leave result
      (answer.map .score, t)
  | .count _ result =>
      let (answer, t) := t.counted result
      (answer.map .online, t)
  | .reading limit course =>
      let (reading, t) := t.reading limit course
      (reading.value?, t)
  | .ping limit course =>
      let (alive, t) := t.ping limit course
      (if alive then some .alive else none, t)

/-- The tracker after calls that were over one after another. -/
def after (calls : List Call) : Tracker := calls.foldl (fun t call => (t.serve call).2) initial

theorem after_concat (calls : List Call) (last : Call) :
    after (calls ++ [last]) = ((after calls).serve last).2 := by
  simp [after]

def errors (t : Tracker) (op : Operation) : Nat :=
  (Store.lookup op.name t.metrics.storeErrors).getD 0

/-- All that a call of an operation does that yields this. -/
structure Noted (t : Tracker) (op : Operation) (value? : Option Value)
    (after : Tracker) : Prop where
  degraded : after.degraded = value?.isNone
  metric : t.metrics.storeDegraded = t.degraded → after.metrics.storeDegraded = after.degraded
  errors : ∀ other,
    after.errors other = t.errors other + if op = other ∧ value? = none then 1 else 0
  online : after.metrics.onlineUsers =
    (value?.bind Value.online?).elim t.metrics.onlineUsers fun n =>
      Int.bmod n (Nat.pow 2 64)

/-- An error is counted under its own operation alone. -/
theorem errors_recordStoreError (m : Metrics) (degraded degraded' : Bool) (op other : Operation) :
    (Tracker.mk degraded (m.recordStoreError op.name)).errors other =
      (Tracker.mk degraded' m).errors other + if op = other then 1 else 0 := by
  have hname : other.name = op.name ↔ op = other :=
    ⟨fun hsame => (Operation.name_injective hsame).symm, fun hsame => hsame ▸ rfl⟩
  simp only [errors, Metrics.recordStoreError, Metrics.lookup_bump, hname]

variable (t : Tracker)

/-- A failure is flagged and counted, and the online figure stays. -/
theorem noted_error {α : Type} (op : Operation) (failure : Failure) :
    t.Noted op none (t.absorb op (.error failure : Except Failure α)).2 := by
  constructor
  case degraded => rfl
  case metric =>
    intro hmetric
    cases hdegraded : t.degraded with
    | true => simpa [absorb, hdegraded, Metrics.recordStoreError] using hmetric
    | false => simp [absorb, hdegraded, Metrics.recordStoreError, Metrics.setDegraded]
  case errors =>
    intro other
    simp only [absorb, and_true]
    rw [errors_recordStoreError _ _ t.degraded]
    cases t.degraded <;> rfl
  case online => cases hdegraded : t.degraded <;> simp [absorb, hdegraded, Metrics.recordStoreError,
      Metrics.setDegraded]

/-- A value takes the flag back and counts nothing. -/
theorem noted_ok {α : Type} (op : Operation) (x : α)
    {value : Value} (hvalue : value.online? = none) :
    t.Noted op (some value) (t.absorb op (.ok x)).2 := by
  constructor
  case degraded => rfl
  case metric =>
    intro hmetric
    cases hdegraded : t.degraded with
    | true => simp [absorb, hdegraded, Metrics.setDegraded]
    | false => simpa [absorb, hdegraded] using hmetric
  case errors =>
    intro other
    cases hdegraded : t.degraded <;> simp [absorb, hdegraded, errors, Metrics.setDegraded]
  case online =>
    cases hdegraded : t.degraded <;> simp [absorb, hdegraded, hvalue, Metrics.setDegraded]

variable {t} in
/-- A count is noted like any other value, and is set as the online figure besides. -/
theorem Noted.setOnlineUsers {op : Operation} {degraded : Bool} {m : Metrics}
    (hplain : t.Noted op (some .alive) ⟨degraded, m⟩) (n : Nat) :
    t.Noted op (some (.online n)) ⟨degraded, m.setOnlineUsers n⟩ := by
  obtain ⟨hdegraded, herrors, honline⟩ := m.setOnlineUsers_spec n
  constructor
  case degraded =>
    have hflag : degraded = false := hplain.degraded
    exact hflag
  case metric =>
    intro hmetric
    have hgauge : m.storeDegraded = degraded := hplain.metric hmetric
    exact hdegraded.trans hgauge
  case errors =>
    intro other
    have hsame := hplain.errors other
    simp only [Tracker.errors, reduceCtorEq, and_false, if_false] at hsame ⊢
    rw [herrors]
    exact hsame
  case online =>
    have hvalue : (some (Value.online n)).bind Value.online? = some n := rfl
    rw [hvalue, Option.elim_some, ← honline]

theorem counted_ok (n : Nat) : (t.counted (.ok n)).2 =
    ⟨(t.absorb .count (.ok n)).2.degraded,
      (t.absorb .count (.ok n)).2.metrics.setOnlineUsers n⟩ := by
  simp only [counted, absorb]

theorem noted_counted (result : Except Failure Nat) :
    t.Noted .count (result.toOption.map .online) (t.counted result).2 := by
  cases result with
  | error failure => exact t.noted_error (α := Nat) .count failure
  | ok n =>
      have hplain : t.Noted .count (some .alive) (t.absorb .count (.ok n)).2 :=
        t.noted_ok .count n rfl
      rw [counted_ok]
      exact hplain.setOnlineUsers n

theorem toOption_bounded {α : Type} (limit : Nat) (course : Course (Except Failure α)) :
    (bounded limit course).toOption = (course.within? limit).bind Except.toOption := by
  unfold bounded
  cases course.within? limit <;> rfl

/-- What is within the limit of a course is what the call gives. -/
theorem reading_value? (limit : Nat) (course : Course (Except Failure Nat)) :
    (Call.reading limit course).value? = (bounded limit course).toOption.map .online := by
  rw [toOption_bounded]
  cases course with
  | never => rfl
  | returns wait result =>
      by_cases htime : wait ≤ limit <;> cases result <;>
        simp [Call.value?, Course.within?, Except.toOption, htime]

theorem ping_value? (limit : Nat) (course : Course (Except Failure Unit)) :
    (Call.ping limit course).value? = (bounded limit course).toOption.map fun _ => .alive := by
  rw [toOption_bounded]
  cases course with
  | never => rfl
  | returns wait result =>
      by_cases htime : wait ≤ limit <;> cases result <;>
        simp [Call.value?, Course.within?, Except.toOption, htime]

/-- A call yields what the store gives within its limit. -/
theorem serve_fst (call : Call) : (t.serve call).1 = call.value? := by
  cases call with
  | join wait result => cases result <;> rfl
  | leave wait result => cases result <;> rfl
  | count wait result => cases result <;> rfl
  | reading limit course =>
      rw [reading_value?]
      simp only [serve, reading]
      cases bounded limit course <;> rfl
  | ping limit course =>
      rw [ping_value?]
      have hanswer : (t.serve (.ping limit course)).1 =
          if (t.absorb .ping (bounded limit course)).1.isSome then some .alive else none := rfl
      rw [hanswer]
      cases bounded limit course <;> rfl

/-- Every call of the tracker does what a call that yields this value does. -/
theorem noted_serve (call : Call) : t.Noted call.operation call.value? (t.serve call).2 := by
  cases call with
  | join wait result =>
      cases result with
      | ok score => exact t.noted_ok .join score rfl
      | error failure => exact t.noted_error (α := Int) .join failure
  | leave wait result =>
      cases result with
      | ok score => exact t.noted_ok .leave score rfl
      | error failure => exact t.noted_error (α := Int) .leave failure
  | count wait result =>
      have hnoted := t.noted_counted result
      cases result <;> exact hnoted
  | reading limit course =>
      have hnoted := t.noted_counted (bounded limit course)
      have htracker : (t.serve (.reading limit course)).2 =
          (t.counted (bounded limit course)).2 := by
        simp only [serve, reading]
        cases bounded limit course <;> rfl
      rw [reading_value?, htracker]
      exact hnoted
  | ping limit course =>
      have htracker :
          (t.serve (.ping limit course)).2 = (t.absorb .ping (bounded limit course)).2 := rfl
      rw [ping_value?, htracker]
      cases bounded limit course with
      | ok x => exact t.noted_ok .ping x rfl
      | error failure => exact t.noted_error (α := Unit) .ping failure

/-- What the tracker shows once the last of some calls is over. -/
structure Follows (calls : List Call) (last : Call) : Prop where
  degraded : (after (calls ++ [last])).degraded = true ↔ last.value? = none
  metric :
    (after (calls ++ [last])).metrics.storeDegraded = (after (calls ++ [last])).degraded
  /-- A reading that is late counts once, as a count. -/
  errors : ∀ op, (after (calls ++ [last])).errors op =
    (calls ++ [last]).countP fun call => call.operation = op ∧ call.value? = none
  online : (after (calls ++ [last])).metrics.onlineUsers =
    (lastOnline? (calls ++ [last])).elim 0 fun n => Int.bmod n (Nat.pow 2 64)
  fits : -(Nat.pow 2 63 : Int) ≤ (after (calls ++ [last])).metrics.onlineUsers ∧
    (after (calls ++ [last])).metrics.onlineUsers < (Nat.pow 2 63 : Int)
  yields : ((after calls).serve last).1 = last.value?

/-- The gauge of the flag agrees with it. -/
theorem storeDegraded_after (calls : List Call) :
    (after calls).metrics.storeDegraded = (after calls).degraded := by
  induction calls using List.reverseRecOn with
  | nil => rfl
  | append_singleton calls last ih =>
      rw [after_concat]
      exact ((after calls).noted_serve last).metric ih

/-- Each error counter tells how many calls of its operation failed. -/
theorem errors_after (calls : List Call) (op : Operation) : (after calls).errors op =
    calls.countP fun call => call.operation = op ∧ call.value? = none := by
  induction calls using List.reverseRecOn with
  | nil => rfl
  | append_singleton calls last ih =>
      rw [after_concat, ((after calls).noted_serve last).errors, ih, List.countP_append]
      simp [List.countP_singleton]

/-- The online figure is the last count that was read, as a signed number of 64 bits. -/
theorem onlineUsers_after (calls : List Call) : (after calls).metrics.onlineUsers =
    (lastOnline? calls).elim 0 fun n => Int.bmod n (Nat.pow 2 64) := by
  induction calls using List.reverseRecOn with
  | nil => rfl
  | append_singleton calls last ih =>
      rw [after_concat, ((after calls).noted_serve last).online, ih, lastOnline?_concat,
        Call.online?]
      cases last.value?.bind Value.online? <;> rfl

/-- For every history of calls, however the store's calls go under them: what the tracker shows
after the last one is what became of the calls. -/
theorem follows_store (calls : List Call) (last : Call) : Follows calls last := by
  constructor
  case degraded =>
    rw [after_concat, ((after calls).noted_serve last).degraded]
    exact Option.isNone_iff_eq_none
  case metric => exact storeDegraded_after (calls ++ [last])
  case errors => exact errors_after (calls ++ [last])
  case online => exact onlineUsers_after (calls ++ [last])
  case fits =>
    rw [onlineUsers_after]
    cases lastOnline? (calls ++ [last]) with
    | none => decide
    | some n =>
        rw [Option.elim_some]
        exact Metrics.bmod_bounds n
  case yields => exact (after calls).serve_fst last

/-- A reading that comes at its limit is good, one a moment later is a failed count. -/
example : (after [.reading 10 (.returns 10 (.ok 3)), .reading 10 (.returns 11 (.ok 4)),
    .leave 5 (.ok 0)]).errors .count = 1 := by
  decide

end Tracker
end Presence
end Rollcall
