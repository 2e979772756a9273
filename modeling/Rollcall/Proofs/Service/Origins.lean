import Rollcall.Redis.Server
import Rollcall.Service.Router

/-!
Who may call from elsewhere.

Only the layer for other origins says who may, and it says it to every request alike
(`Service.grants_eq`): the answer of the path never does. A list that is set lets in nobody but
those on it, unless no header could carry any of its entries; then it lets in everyone
(`Service.whitelists_iff`).
-/

namespace Rollcall

namespace Http

/-- A response that says nothing of other origins. -/
def Response.IsSilent (r : Response) : Prop := r.values Cors.grantHeader = []

theorem Response.values_addHeader (r : Response) {name other : String} (value : String)
    (hother : name ≠ other) : (r.addHeader name value).values other = r.values other := by
  simp [values, addHeader, hother]

theorem Response.values_setHeader (r : Response) (name value : String) :
    (r.setHeader name value).values name = [value] := by
  simp [values, setHeader]

theorem Response.isSilent_json (status : Nat) (body : Json) : (json status body).IsSilent := rfl

theorem Handshake.Refusal.isSilent_response (refusal : Refusal) : refusal.response.IsSilent := by
  cases refusal <;> rfl

namespace Cors

/-- Only the entries that a header can carry count. -/
theorem Origins.ofList?_eq_some {entries : List String} {o : Origins}
    (hset : Origins.ofList? entries = some o) :
    entries.filter Headers.isValue = [] ∧ o = .anyone ∨
      entries.filter Headers.isValue ≠ [] ∧ wildcard ∉ entries.filter Headers.isValue ∧
        o = .only (entries.filter Headers.isValue) := by
  unfold Origins.ofList? at hset
  simp only at hset
  split at hset
  case isTrue hnone =>
    cases hset
    exact .inl ⟨hnone, rfl⟩
  case isFalse hsome =>
    split at hset
    case isTrue => cases hset
    case isFalse hwildcard =>
      cases hset
      exact .inr ⟨hsome, by simpa using hwildcard, rfl⟩

/-- The marked response grants what the list of origins grants to the request, and nothing else. -/
theorem values_mark (o : Origins) (r : Request) {response : Response}
    (hsilent : response.IsSilent) :
    (mark o r response).values grantHeader = (o.grant? (r.headers.first? "origin")).toList := by
  have hvaried : (response.addHeader "vary" varying).values grantHeader = [] := by
    rw [response.values_addHeader varying (by decide)]
    exact hsilent
  unfold mark
  simp only
  split
  next origin hgrant => rw [Response.values_setHeader, hgrant]; rfl
  next hgrant => rw [hvaried, hgrant]; rfl

theorem values_preflight (o : Origins) (r : Request) :
    (preflight o r).values grantHeader = (o.grant? (r.headers.first? "origin")).toList := by
  unfold preflight
  rw [Response.values_addHeader _ _ (by decide), Response.values_addHeader _ _ (by decide)]
  exact values_mark o r rfl

end Cors
end Http

namespace Service

open Http

variable {σ : Type}

/-- Whether the service runs with what its setting asks for. -/
def IsSet (s : Service σ) : Prop :=
  Cors.Origins.ofList? s.settings.server.corsOrigins = some s.origins

def usable (s : Service σ) : List String := s.settings.server.corsOrigins.filter Headers.isValue

/-- A service with one setting of origins that nobody has called yet. -/
def shareWith (σ : Type) (entries : List String) (origins : Cors.Origins) : Service σ :=
  .create { server := { corsOrigins := entries } } (.empty Latency.Window.defaultCapacity) origins
    ⟨"", "", "", "", "", .zero, none, none, none⟩

theorem isSet_shareWith {entries : List String} (hunusable : entries.filter Headers.isValue = []) :
    (shareWith σ entries .anyone).IsSet := if_pos hunusable

theorem isSilent_openSocket (s : Service σ) (r : Request) : (s.openSocket r).1.IsSilent := by
  unfold openSocket
  split
  next refusal _ => exact refusal.isSilent_response
  next key _ =>
    split
    next response hrefused =>
      unfold userOf at hrefused
      split at hrefused
      · cases hrefused
      · cases hrefused
      · cases hrefused
        rfl
    next user _ =>
      split
      · rfl
      · rfl

theorem origins_openSocket (s : Service σ) (r : Request) :
    (s.openSocket r).2.origins = s.origins := by
  unfold openSocket
  split
  · rfl
  · split
    · rfl
    · split <;> rfl

theorem origins_pass (s : Service σ) (millis : Nat) : (s.pass millis).origins = s.origins := by
  unfold pass
  split <;> rfl

variable [Redis.Network σ]

theorem origins_pingStore (s : Service σ) : s.pingStore.2.origins = s.origins := by
  unfold pingStore
  split
  · rfl
  · exact s.origins_pass _

theorem health_spec (s : Service σ) : s.health.1.IsSilent ∧ s.health.2.origins = s.origins := by
  unfold health
  simp only
  split <;> exact ⟨Response.isSilent_json _ _, s.origins_pingStore⟩

theorem origins_metricsPage (s : Service σ) : s.metricsPage.2.origins = s.origins := by
  unfold metricsPage sampled
  simp only
  split <;> rfl

theorem origins_overview (s : Service σ) : s.overview.2.origins = s.origins := by
  unfold overview snapshot
  simp only
  split <;> simp [origins_pass, setTracker, mapWorld]

theorem serve_spec (s : Service σ) (route : Route) (r : Request) :
    (s.serve route r).1.IsSilent ∧ (s.serve route r).2.origins = s.origins := by
  cases route with
  | socket => exact ⟨s.isSilent_openSocket r, s.origins_openSocket r⟩
  | health => exact s.health_spec
  | metrics => exact ⟨rfl, s.origins_metricsPage⟩
  | overview => exact ⟨rfl, s.origins_overview⟩

/-- The answer of the path, and the note that is taken of its time, have nothing to do with other
origins. -/
theorem timed_spec (s : Service σ) (r : Request) :
    (s.timed r).1.IsSilent ∧ (s.timed r).2.origins = s.origins := by
  unfold timed answer
  simp only
  cases Route.ofPath? r.path with
  | none =>
      refine ⟨?_, rfl⟩
      split <;> rfl
  | some route =>
      obtain ⟨hsilent, horigins⟩ := s.serve_spec route r
      by_cases hmethod : isMethod r.method = true
      · simp only [hmethod, if_true]
        refine ⟨?_, horigins⟩
        split <;> exact hsilent
      · simp only [hmethod]
        refine ⟨?_, rfl⟩
        split <;> rfl

/-- Which origins the answer to a request lets in. -/
def grants (s : Service σ) (r : Request) : List String := (s.handle r).1.values Cors.grantHeader

/-- However it is answered, a request is granted what the list of origins grants to it. -/
theorem grants_eq (s : Service σ) (r : Request) :
    s.grants r = (s.origins.grant? (r.headers.first? "origin")).toList := by
  have hshared : (s.shared r).1.values Cors.grantHeader =
      (s.origins.grant? (r.headers.first? "origin")).toList := by
    unfold shared
    split
    · exact Cors.values_preflight s.origins r
    · obtain ⟨hsilent, horigins⟩ := s.timed_spec r
      rw [← horigins]
      exact Cors.values_mark (s.timed r).2.origins r hsilent
  unfold grants handle
  simp only
  split
  · rw [Response.values_addHeader _ _ (by decide)]
    exact hshared
  · exact hshared

/-- Whether a browser lets pages of an origin have the answer to their request. -/
def LetsIn (s : Service σ) (r : Request) (origin : String) : Prop :=
  ∃ granted ∈ s.grants r, granted = Cors.wildcard ∨ granted = origin

/-- A service that runs as it is set lets an origin in if no entry of the list is usable, or else if
the list names it. -/
theorem letsIn_iff {s : Service σ} (hset : s.IsSet) (r : Request) (origin : String) :
    s.LetsIn r origin ↔
      s.usable = [] ∨ r.headers.first? "origin" = some origin ∧ origin ∈ s.usable := by
  unfold LetsIn
  rw [grants_eq]
  rcases Cors.Origins.ofList?_eq_some hset with ⟨hnone, horigins⟩ | ⟨hsome, hwildcard, horigins⟩
  · simp [horigins, Cors.Origins.grant?, usable, hnone]
  · change s.usable ≠ [] at hsome
    change Cors.wildcard ∉ s.usable at hwildcard
    change s.origins = .only s.usable at horigins
    rw [horigins]
    simp only [Cors.Origins.grant?, Option.mem_toList, Option.filter_eq_some_iff,
      List.contains_iff_mem, hsome, false_or]
    constructor
    · rintro ⟨granted, ⟨hfrom, hlisted⟩, rfl | rfl⟩
      · exact absurd hlisted hwildcard
      · exact ⟨hfrom, hlisted⟩
    · rintro ⟨hfrom, hlisted⟩
      exact ⟨origin, ⟨hfrom, hlisted⟩, .inr rfl⟩

/-- What a setting of origins promises of every service that runs with it: without entries every
origin is let in, otherwise only those that stand in the list as they are. -/
structure Whitelists (σ : Type) [Redis.Network σ] (entries : List String) : Prop where
  anyone : entries = [] → ∀ s : Service σ, s.IsSet → s.settings.server.corsOrigins = entries →
    ∀ r origin, (r.headers.first? "origin").isSome → s.LetsIn r origin
  listed : entries ≠ [] → ∀ s : Service σ, s.IsSet → s.settings.server.corsOrigins = entries →
    ∀ r origin, (r.headers.first? "origin").isSome → s.LetsIn r origin → origin ∈ entries

def requestFrom (origin : String) : Request :=
  ⟨"GET", "/health", none, ⟨[("origin", origin)]⟩, none, false⟩

/-- The promise is kept by the empty list and by every list with an entry that a header can carry,
whatever else stands in it. A list of other entries alone counts as empty. -/
theorem whitelists_iff (entries : List String) :
    Whitelists σ entries ↔ entries = [] ∨ ∃ entry ∈ entries, Headers.isValue entry = true := by
  constructor
  · intro hkept
    refine Classical.byContradiction fun hnone => ?_
    obtain ⟨hlist, hinvalid⟩ := not_or.mp hnone
    have hunusable : entries.filter Headers.isValue = [] :=
      List.filter_eq_nil_iff.mpr fun entry hentry hvalue => hinvalid ⟨entry, hentry, hvalue⟩
    have hset : (shareWith σ entries .anyone).IsSet := isSet_shareWith hunusable
    have hin : (shareWith σ entries .anyone).LetsIn (requestFrom "https://elsewhere.example")
        "https://elsewhere.example" := (letsIn_iff hset _ _).mpr (.inl hunusable)
    exact hinvalid ⟨_, hkept.listed hlist _ hset rfl _ _ rfl hin, by decide⟩
  · intro hentries
    refine ⟨?_, ?_⟩
    · rintro rfl s hset hnone r origin -
      exact (letsIn_iff hset r origin).mpr (.inl (by simp [usable, hnone]))
    · rintro hlist s hset rfl r origin - hin
      rcases (letsIn_iff hset r origin).mp hin with hnone | ⟨-, hlisted⟩
      · obtain ⟨entry, hentry, hvalue⟩ := hentries.resolve_left hlist
        have husable : entry ∈ s.usable := List.mem_filter.mpr ⟨hentry, hvalue⟩
        simp [hnone] at husable
      · exact (List.mem_filter.mp hlisted).1

/-- A list with one entry that no header can carry lets in an origin that is not on it. -/
theorem unusable_list_open : ∃ s : Service Redis.Server,
    s.settings.server.corsOrigins = ["bad\norigin"] ∧ s.IsSet ∧
      s.grants (requestFrom "https://evil.example") = ["*"] ∧
      ¬ Whitelists Redis.Server ["bad\norigin"] := by
  have hset : (shareWith Redis.Server ["bad\norigin"] .anyone).IsSet := isSet_shareWith (by decide)
  refine ⟨shareWith _ ["bad\norigin"] .anyone, rfl, hset, rfl, fun hkept => ?_⟩
  have hin : (shareWith Redis.Server ["bad\norigin"] .anyone).LetsIn
    (requestFrom "https://evil.example") "https://evil.example" := ⟨"*", by decide, .inl rfl⟩
  exact absurd (hkept.listed (by decide) _ hset rfl _ _ rfl hin) (by decide)

end Service
end Rollcall
