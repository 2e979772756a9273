import Rollcall.Proofs.Session.Requests
import Rollcall.Redis.Server
import Rollcall.Service.Router

/-!
Which requests are timed.

An answer may change much of the service, but not the window of latencies and not the requests that
the metrics count (`Service.untimed_answer`). Both are one further once the time of the answer is
noted, and this is done exactly once for each request that gets as far. The layer for other origins
answers those who only ask by itself, and it lies outside. So every request of a sequence is timed
exactly if none of them only asks (`Service.timesEach_iff`).
-/

namespace Rollcall

namespace Metrics

theorem requestCount_congr {m m' : Metrics} (hrequests : m'.requests = m.requests) :
    m'.requestCount = m.requestCount := by
  rw [requestCount, hrequests, requestCount]

theorem foldl_count_succ (series : List RequestSeries) (n : Nat) :
    series.foldl (fun n s => n + s.durations.count) (n + 1) =
      series.foldl (fun n s => n + s.durations.count) n + 1 := by
  induction series generalizing n with
  | nil => rfl
  | cons s rest ih => rw [List.foldl_cons, List.foldl_cons, Nat.add_right_comm, ih]

/-- One duration more in its series, or in a new one, is one request more. -/
theorem foldl_count_observeSeries (method : String) (status : Nat) (duration : Span)
    (series : List RequestSeries) (n : Nat) :
    (observeSeries method status duration series).foldl (fun n s => n + s.durations.count) n =
      series.foldl (fun n s => n + s.durations.count) n + 1 := by
  induction series generalizing n with
  | nil => rfl
  | cons s rest ih =>
      unfold observeSeries
      split
      · exact foldl_count_succ rest (n + s.durations.count)
      · exact ih (n + s.durations.count)

/-- Whatever the method and the status, a request is counted once. -/
theorem requestCount_recordRequest (m : Metrics) (method : String) (status : Nat)
    (duration : Span) :
    (m.recordRequest method status duration).requestCount = m.requestCount + 1 :=
  foldl_count_observeSeries method status duration m.requests 0

end Metrics

def Json.find? : List String → Json → Option Json
  | [], value => some value
  | name :: path, .object fields => (fields.lookup name).bind (find? path)
  | _ :: _, _ => none

theorem Http.Cors.body_mark (o : Origins) (r : Request) (response : Response) :
    (mark o r response).body = response.body := by
  unfold mark
  simp only
  split <;> rfl

namespace Service

open Http

variable {σ : Type} {s s' s'' : Service σ}

/-- Nothing was timed between two states of the service. -/
structure Untimed (s s' : Service σ) : Prop where
  latency : s'.latency = s.latency
  requests : s'.world.site.requests = s.world.site.requests

namespace Untimed

theorem refl (s : Service σ) : Untimed s s := ⟨rfl, rfl⟩

theorem trans (hfirst : Untimed s s') (hsecond : Untimed s' s'') : Untimed s s'' :=
  ⟨hsecond.latency.trans hfirst.latency, hsecond.requests.trans hfirst.requests⟩

theorem requestCount (huntimed : Untimed s s') : s'.metrics.requestCount = s.metrics.requestCount :=
  Metrics.requestCount_congr huntimed.requests

end Untimed

theorem untimed_pass (s : Service σ) (millis : Nat) : Untimed s (s.pass millis) := by
  unfold pass
  split
  · exact .refl s
  · exact ⟨rfl, s.world.requests_sleep millis⟩

theorem untimed_setTracker (s : Service σ) {tracker : Presence.Tracker}
    (hrequests : tracker.metrics.requests = s.tracker.metrics.requests) :
    Untimed s (s.setTracker tracker) :=
  ⟨rfl, hrequests⟩

theorem untimed_reading (s : Service σ) (course : Course (Except Presence.Failure Nat))
    (millis : Nat) :
    Untimed s ((s.setTracker (s.tracker.reading s.limit course).2).pass millis) :=
  (s.untimed_setTracker (s.tracker.requests_reading s.limit course)).trans (untimed_pass _ millis)

theorem untimed_openSocket (s : Service σ) (r : Request) : Untimed s (s.openSocket r).2 := by
  unfold openSocket
  split
  · exact .refl s
  · split
    · exact .refl s
    · split
      · exact .refl s
      · exact ⟨rfl, rfl⟩

variable [Redis.Network σ]

theorem untimed_pingStore (s : Service σ) : Untimed s s.pingStore.2 := by
  unfold pingStore
  split
  · exact ⟨rfl, s.tracker.requests_ping s.limit _⟩
  · exact (s.untimed_pass _).trans (untimed_setTracker _ (Presence.Tracker.requests_ping _ _ _))

theorem untimed_health (s : Service σ) : Untimed s s.health.2 := by
  have hpinged := s.untimed_pingStore
  unfold health
  simp only
  split
  · exact hpinged
  · exact ⟨hpinged.latency, hpinged.requests⟩

theorem untimed_metricsPage (s : Service σ) : Untimed s s.metricsPage.2 := by
  unfold metricsPage sampled
  simp only
  split <;> exact ⟨rfl, rfl⟩

/-- A snapshot shows the window as it was when it was asked for. -/
theorem untimed_snapshot (s : Service σ) :
    Untimed s s.snapshot.2 ∧ s.snapshot.1.latency = s.latency.summary := by
  unfold snapshot
  simp only
  split
  next client _ =>
    generalize client.survey s.settings.presence.key s.settings.stats.cacheKeyPatterns = survey
    have hsurveyed : Untimed s { s with store := some survey.client } := ⟨rfl, rfl⟩
    have hread (millis : Nat) := hsurveyed.trans (untimed_reading _ survey.onlineCourse millis)
    exact ⟨hread _, congrArg Latency.Window.summary (hread _).latency⟩
  next =>
    have hwaited := s.untimed_pass (waiting s.limit s.presence.start)
    have hread (course : Course (Except Presence.Failure Nat)) (millis : Nat) :=
      hwaited.trans (untimed_reading _ course millis)
    exact ⟨hread _ _, congrArg Latency.Window.summary (hread _ _).latency⟩

theorem untimed_serve (s : Service σ) (route : Route) (r : Request) :
    Untimed s (s.serve route r).2 := by
  cases route with
  | socket => exact s.untimed_openSocket r
  | health => exact s.untimed_health
  | metrics => exact s.untimed_metricsPage
  | overview => exact s.untimed_snapshot.1

theorem untimed_answer (s : Service σ) (r : Request) : Untimed s (s.answer r).2 := by
  unfold answer
  simp only
  split
  · exact .refl s
  · split
    · exact s.untimed_serve _ r
    · exact .refl s

/-- What was timed so far: the requests that the window has seen, and those that the metrics
count. -/
def timings (s : Service σ) : Nat × Nat := (s.latency.total, s.metrics.requestCount)

/-- One more request everywhere. -/
theorem timings_timed (s : Service σ) (r : Request) :
    (s.timed r).2.timings = (s.timings.1 + 1, s.timings.2 + 1) := by
  have huntimed := s.untimed_answer r
  unfold timed
  generalize s.answer r = answered at huntimed ⊢
  obtain ⟨response, t⟩ := answered
  change ((t.latency.record _).total, (t.metrics.recordRequest _ _ _).requestCount) = _
  rw [Latency.Window.total_record, Metrics.requestCount_recordRequest, huntimed.latency,
    huntimed.requestCount]
  rfl

/-- A preflight request leaves the service as it is; every other request is timed. -/
theorem service_handle (s : Service σ) (r : Request) :
    (s.handle r).2 = if r.method = Cors.asks then s else (s.timed r).2 := by
  have hshared : (s.shared r).2 = if r.method = Cors.asks then s else (s.timed r).2 := by
    unfold shared
    split <;> rfl
  rw [← hshared]
  unfold handle
  simp only
  split <;> rfl

/-- Window and counters grow by one for each request, preflight requests left out. -/
theorem timings_handle (s : Service σ) (r : Request) :
    (s.handle r).2.timings =
      if r.method = Cors.asks then s.timings else (s.timings.1 + 1, s.timings.2 + 1) := by
  rw [service_handle]
  split
  · rfl
  · exact s.timings_timed r

/-- A response whose body is a document that gives a number of requests, in the place where the
stats give the number of all. -/
def Reports (response : Response) (n : Nat) : Prop :=
  ∃ document : Json, response.body = document.text ∧
    document.find? ["data", "requestStats", "totalRequests"] = some (.nat n)

structure AsksForStats (r : Request) : Prop where
  method : r.method = "GET"
  path : r.path = "/v1/stats/overview"

theorem reports_overview (s : Service σ) : Reports s.overview.1 s.latency.total := by
  have htotal : s.snapshot.1.latency.total = s.latency.total := by
    rw [s.untimed_snapshot.2]
    rfl
  refine ⟨(Envelope.success s.snapshot.1.toJson).toJson, rfl, ?_⟩
  rw [← htotal]
  rfl

/-- The stats tell how many requests the window had seen when they were asked for. -/
theorem reports_handle (s : Service σ) {r : Request} (hasks : AsksForStats r) :
    Reports (s.handle r).1 s.latency.total := by
  have hroute : Route.ofPath? r.path = some .overview := by
    rw [hasks.path]
    rfl
  have hanswer : (s.answer r).1 = s.overview.1 := by
    unfold answer
    simp [hroute, hasks.method, isMethod, serve]
  have hbody : (s.handle r).1.body = s.overview.1.body := by
    rw [← hanswer]
    unfold handle shared
    simp only [hasks.method, Cors.asks, hroute, isMethod]
    exact Cors.body_mark _ r _
  unfold Reports
  rw [hbody]
  exact s.reports_overview

/-- The service after some requests, one after the other. Meanwhile the sessions go on, and anything
else may change but the window. -/
inductive Served (start : Service σ) : List Request → Service σ → Prop where
  | start : Served start [] start
  | handle {requests : List Request} {s : Service σ} (earlier : Served start requests s)
      (r : Request) :
      Served start (requests ++ [r]) (s.handle r).2
  | meanwhile {requests : List Request} {s s' : Service σ} (earlier : Served start requests s)
      (hlatency : s'.latency = s.latency) (run : Session.Run (fun _ => True) s.world s'.world) :
      Served start requests s'

/-- How many requests do more than ask what a browser may do. -/
def calls (requests : List Request) : Nat := requests.countP fun r => r.method ≠ Cors.asks

theorem calls_concat (requests : List Request) (r : Request) :
    calls (requests ++ [r]) =
      if r.method = Cors.asks then calls requests else calls requests + 1 := by
  by_cases hasks : r.method = Cors.asks <;> simp [calls, hasks]

variable {start : Service σ} {requests : List Request}

theorem Served.timings_eq (served : Served start requests s) :
    s.timings = (start.timings.1 + calls requests, start.timings.2 + calls requests) := by
  induction served with
  | start => rfl
  | handle earlier r ih =>
      rw [timings_handle, ih, calls_concat]
      split <;> rfl
  | meanwhile earlier hlatency run ih =>
      have huntimed : Untimed _ _ := ⟨hlatency, run.requests_eq⟩
      rw [← ih]
      exact Prod.ext (congrArg Latency.Window.total hlatency) huntimed.requestCount

/-- After so many requests each was timed once, and the stats tell how many there were. -/
structure TimesEach (start : Service σ) (requests : List Request) (s : Service σ) : Prop where
  total : s.latency.total = start.latency.total + requests.length
  counted : s.metrics.requestCount = start.metrics.requestCount + requests.length
  reported : ∀ r, AsksForStats r → Reports (s.handle r).1 (start.latency.total + requests.length)

/-- In any state that requests have led to, whatever went on meanwhile: the next request is timed
exactly if it does not only ask. So far those were timed that did not, and the stats tell their
number. So each was timed and told exactly if none of them only asked. -/
theorem timesEach_iff (served : Served start requests s) :
    (∀ r, (s.handle r).2.timings = (s.timings.1 + 1, s.timings.2 + 1) ↔ r.method ≠ Cors.asks) ∧
    s.timings = (start.timings.1 + calls requests, start.timings.2 + calls requests) ∧
    (∀ r, AsksForStats r → Reports (s.handle r).1 (start.latency.total + calls requests)) ∧
    (TimesEach start requests s ↔ ∀ r ∈ requests, r.method ≠ Cors.asks) := by
  have htimings := served.timings_eq
  obtain ⟨htotal, hcounted⟩ : s.latency.total = start.latency.total + calls requests ∧
      s.metrics.requestCount = start.metrics.requestCount + calls requests := Prod.mk.inj htimings
  have hreported (r : Request) (hasks : AsksForStats r) :
      Reports (s.handle r).1 (start.latency.total + calls requests) := by
    rw [← htotal]
    exact s.reports_handle hasks
  have hall : calls requests = requests.length ↔ ∀ r ∈ requests, r.method ≠ Cors.asks := by
    simp only [calls, List.countP_eq_length, decide_eq_true_eq]
  refine ⟨?_, htimings, hreported, ?_⟩
  · intro r
    rw [timings_handle]
    split
    case isTrue hasks =>
      refine iff_of_false ?_ (not_not_intro hasks)
      intro hgrown
      have hsame : s.timings.1 = s.timings.1 + 1 := congrArg Prod.fst hgrown
      omega
    case isFalse hcalls => exact iff_of_true rfl hcalls
  · rw [← hall]
    constructor
    · intro htimes
      have hlength := htimes.total
      omega
    · intro hlength
      rw [hlength] at htotal hcounted hreported
      exact ⟨htotal, hcounted, hreported⟩

section Calm

/-- A service with nothing but the default settings that nobody has called yet. -/
def calm : Service Redis.Server :=
  .create {} (.empty Latency.Window.defaultCapacity) .anyone
    ⟨"", "", "", "", "", .zero, none, none, none⟩

def bare (method path : String) : Request := ⟨method, path, none, ⟨[]⟩, none, false⟩

/-- A request for a page, one by a method that its page does not know, and one for no page. -/
theorem timesEach_calm : ∃ s, Served calm [bare "GET" "/health", bare "POST" "/metrics",
      bare "GET" "/nowhere"] s ∧
    TimesEach calm [bare "GET" "/health", bare "POST" "/metrics", bare "GET" "/nowhere"] s := by
  have uncalled : Served calm [] calm := .start
  have served := ((uncalled.handle (bare "GET" "/health")).handle (bare "POST" "/metrics")).handle
    (bare "GET" "/nowhere")
  exact ⟨_, served, (timesEach_iff served).2.2.2.mpr (by decide)⟩

/-- A browser that asks whether it may call is answered, and nothing is timed. -/
theorem asking_untimed : ∃ s, Served calm [bare "OPTIONS" "/health"] s ∧
    s.latency.total = 0 ∧ s.metrics.requestCount = 0 ∧
    ¬ TimesEach calm [bare "OPTIONS" "/health"] s := by
  have uncalled : Served calm [] calm := .start
  have served := uncalled.handle (bare "OPTIONS" "/health")
  refine ⟨_, served, rfl, rfl, fun htimes => ?_⟩
  exact absurd htimes.total (by decide)

end Calm

end Service
end Rollcall
