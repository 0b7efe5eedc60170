import HstongApi.Breaker
import HstongApi.Retry

/-!
# A call of the client

`Client.Do` and `Client.execute` (`client/client.go`): the breaker admits the call, the
retry policy makes its attempts, each attempt waits for the rate limiter and goes to
the transport, and the result is told to the breaker, to the metrics and to the span
of the call.

What surrounds a call is a world about which nothing is known: other calls use the same
breakers and the same limiter meanwhile. `Config.do` keeps what the observers of the
call are told, in order. `oneOutcome_iff` says when they are all told the result that
is returned. The span is not: `defer endSpan(err)` evaluates `err` before the call is
made.
-/

namespace HstongApi.Client

open CircuitBreaker Retry Routes

/-! ## The configuration and the world -/

/-- What `Do` reads of the `Config`. A breaker is a pointer, and one breaker may be
installed under several options. -/
structure Config where
  /-- a limiter is installed; each attempt then waits for it -/
  rateLimiter : Bool := false
  /-- the breaker of the paths that only read -/
  queryBreaker : Option ℕ := none
  /-- the breaker of the paths that change something -/
  mutationBreaker : Option ℕ := none
  /-- the breaker of a path whose own is not set -/
  circuitBreaker : Option ℕ := none
  /-- without a policy a call is one attempt -/
  retryPolicy : Option Policy := none
  /-- the instruments are told of each call -/
  metrics : Bool := false
  /-- the debug log is told of each call -/
  logger : Bool := false

/-- What a call finds around it. Every look at the world may change it. -/
structure Env (σ ε : Type) extends Retry.Env σ ε where
  /-- `c.closed.Load` -/
  closed : σ → Bool
  /-- the error of `Route.Validate` -/
  unknownRoute : Bytes → ε
  /-- `spanFactory` -/
  spanFactory : Bytes → σ → σ
  /-- `time.Now` -/
  now : σ → σ × ℤ
  /-- the breaker behind a pointer -/
  breaker : ℕ → σ → Breaker
  /-- what a method of the breaker leaves behind the pointer -/
  setBreaker : ℕ → Breaker → σ → σ
  /-- `Limiter.WaitEndpoint` -/
  waitEndpoint : Bytes → σ → σ × Option ε
  /-- `Instruments.RateLimitWait` -/
  rateLimitWait : Bytes → σ → σ
  /-- `Transport.Do`, with the parameters, the codec and the target of this call -/
  transport : Bytes → Bytes → σ → σ × Option ε

/-- What an observer of a call is told. -/
inductive Observation (ε : Type)
  | debugRequest (op path : Bytes)
  | onSuccess (cb : ℕ)
  | onFailure (cb : ℕ)
  | httpRequest (op : Bytes)
  | httpLatency (op outcome : Bytes)
  | httpError (op : Bytes) (category : Category)
  | orderOutcome (op outcome : Bytes)
  | debugError (op : Bytes) (category : Category)
  | endSpan (err : Option ε)
  deriving DecidableEq

/-- The end of a call: the world, what was observed, and the error that is returned. -/
structure Finished (σ ε : Type) where
  /-- the world after the call -/
  world : σ
  /-- what the observers were told, in order -/
  seen : List (Observation ε)
  /-- the result, `none` for success -/
  err : Option ε

/-! ## The code -/

section

variable {σ ε : Type}

/-- `metrics.outcome` -/
def outcome : Option ε → Bytes
  | none => bytes "ok"
  | some _ => bytes "error"

/-- `outcomeLabel` -/
def outcomeLabel (err : Option ε) : Bytes := outcome err

/-- `Allow`, on the breaker behind the pointer -/
def Env.allow (env : Env σ ε) (cb : ℕ) (w : σ) : σ × Bool :=
  let (w, now) := env.now w
  let (b, admitted) := (env.breaker cb w).allow now
  (env.setBreaker cb b w, admitted)

/-- `OnFailure`, on the breaker behind the pointer -/
def Env.onFailure (env : Env σ ε) (cb : ℕ) (w : σ) : σ :=
  let (w, now) := env.now w
  env.setBreaker cb ((env.breaker cb w).onFailure now) w

/-- `OnSuccess`, on the breaker behind the pointer -/
def Env.onSuccess (env : Env σ ε) (cb : ℕ) (w : σ) : σ :=
  env.setBreaker cb (env.breaker cb w).onSuccess w

/-- The breaker of a path -/
def Config.breakerFor (c : Config) (path : Bytes) : Option ℕ :=
  if isMutation path then c.mutationBreaker.or c.circuitBreaker
  else c.queryBreaker.or c.circuitBreaker

/-- The function `attempt` of `execute` -/
def Config.attempt (c : Config) (env : Env σ ε) (op path : Bytes) (w : σ) : σ × Option ε :=
  if c.rateLimiter then
    match env.waitEndpoint path w with
    | (w, some werr) => (w, some werr)
    | (w, none) => env.transport op path (if c.metrics then env.rateLimitWait op w else w)
  else env.transport op path w

variable [ErrorChain ε]

/-- `CategoryOf` -/
def categoryOf (err : ε) : Category :=
  match ErrorChain.asError err with
  | some (some e) => e.category.getD (GoError.categoryForCode e.code)
  | _ =>
    if ErrorChain.isDeadlineExceeded err || ErrorChain.isCanceled err then .timeout else .unknown

/-- The attempts of `execute`, with the retry policy or without -/
def Config.attempts (c : Config) (env : Env σ ε) (op path : Bytes) (w : σ) : σ × Option ε :=
  match c.retryPolicy with
  | some p =>
    let r := p.doRoute env.toEnv path (some (c.attempt env op path)) w
    (r.world, r.err)
  | none => c.attempt env op path w

/-- `execute` -/
def Config.execute (c : Config) (env : Env σ ε) (op path : Bytes) (w : σ) : Finished σ ε :=
  match c.breakerFor path with
  | none =>
    let (w, err) := c.attempts env op path w
    ⟨w, [], err⟩
  | some cb =>
    match env.allow cb w with
    | (w, false) =>
      ⟨w, [], some (ErrorChain.new (bytes "resilience: circuit breaker is open: " ++ op))⟩
    | (w, true) =>
      match c.attempts env op path w with
      | (w, some err) => ⟨env.onFailure cb w, [.onFailure cb], some err⟩
      | (w, none) => ⟨env.onSuccess cb w, [.onSuccess cb], none⟩

/-- The measurements of `Do` -/
def Config.measure (c : Config) (op path : Bytes) (err : Option ε) : List (Observation ε) :=
  if c.metrics then
    [.httpRequest op, .httpLatency op (outcome err)] ++
      (err.map fun err => .httpError op (categoryOf err)).toList ++
      (if isMutation path then [.orderOutcome op (outcomeLabel err)] else [])
  else []

/-- The last line of the log of a call -/
def Config.debugError (c : Config) (op : Bytes) (err : Option ε) : List (Observation ε) :=
  if c.logger then (err.map fun err => .debugError op (categoryOf err)).toList else []

/-- `Do` -/
def Config.do (c : Config) (env : Env σ ε) (op route : Bytes) (w : σ) : Finished σ ε :=
  if env.closed w then
    ⟨w, [], some (ErrorChain.new (bytes "client: client is closed: " ++ op))⟩
  else if route ∉ canonicalRoutes then ⟨w, [], some (env.unknownRoute route)⟩
  else
    let w := env.spanFactory op w
    -- the argument of the deferred call is evaluated here, where `err` is nil
    let deferred := .endSpan none
    let request := if c.logger then [.debugRequest op route] else []
    let r := c.execute env op route w
    ⟨r.world, request ++ r.seen ++ c.measure op route r.err ++ c.debugError op r.err ++ [deferred],
      r.err⟩

/-! ## One outcome -/

/-- What the observer is told is true of a call with this result. -/
def Observation.Describes (result : Option ε) : Observation ε → Prop
  | .onSuccess _ => result = none
  | .onFailure _ => result ≠ none
  | .httpLatency _ label | .orderOutcome _ label =>
    label = bytes "ok" ∧ result = none ∨ label = bytes "error" ∧ result ≠ none
  | .httpError _ category | .debugError _ category =>
    ∃ err, result = some err ∧ category = categoryOf err
  | .endSpan err => err = result
  | .debugRequest _ _ | .httpRequest _ => True

/-- All observers are told the result that is returned, and none is told it twice. -/
structure OneOutcome (r : Finished σ ε) : Prop where
  same : ∀ o ∈ r.seen, o.Describes r.err
  once : r.seen.Nodup

/-- The breaker, if there is one, admits the call, and the attempts end without an
error. -/
def Config.Succeeds (c : Config) (env : Env σ ε) (op path : Bytes) (w : σ) : Prop :=
  match c.breakerFor path with
  | none => (c.attempts env op path w).2 = none
  | some cb => (env.allow cb w).2 = true ∧ (c.attempts env op path (env.allow cb w).1).2 = none

omit [ErrorChain ε] in
theorem outcome_describes (result : Option ε) :
    outcome result = bytes "ok" ∧ result = none ∨
      outcome result = bytes "error" ∧ result ≠ none := by
  cases result with
  | none => exact .inl ⟨rfl, rfl⟩
  | some err => exact .inr ⟨rfl, nofun⟩

/-- `execute` succeeds as `Succeeds` says, and tells its result to the breaker or to
nobody. -/
theorem Config.execute_spec (c : Config) (env : Env σ ε) (op path : Bytes) (w : σ) :
    ((c.execute env op path w).err = none ↔ c.Succeeds env op path w) ∧
    ((c.execute env op path w).seen = [] ∨ ∃ cb, (c.execute env op path w).seen =
      [if (c.execute env op path w).err.isNone then .onSuccess cb else .onFailure cb]) := by
  cases hcb : c.breakerFor path with
  | none => simp [execute, Succeeds, hcb]
  | some cb =>
    rcases hallow : env.allow cb w with ⟨w', _ | _⟩
    · simp [execute, Succeeds, hcb, hallow]
    · rcases hattempts : c.attempts env op path w' with ⟨w'', _ | err⟩
      · simp [execute, Succeeds, hcb, hallow, hattempts]
      · simp [execute, Succeeds, hcb, hallow, hattempts]

theorem Config.execute_describes (c : Config) (env : Env σ ε) (op path : Bytes) (w : σ) :
    ∀ o ∈ (c.execute env op path w).seen, o.Describes (c.execute env op path w).err := by
  intro o ho
  rcases (c.execute_spec env op path w).2 with hseen | ⟨cb, hseen⟩
  · rw [hseen] at ho
    cases ho
  · rw [hseen, List.mem_singleton] at ho
    rw [ho]
    cases (c.execute env op path w).err with
    | none => exact rfl
    | some err => exact Option.some_ne_none err

/-- The category of the result describes it, whoever is told. -/
theorem category_describes (err : Option ε) {tell : Category → Observation ε}
    (htell : ∀ e : ε, (tell (categoryOf e)).Describes (some e)) :
    ∀ o ∈ (err.map fun err => tell (categoryOf err)).toList, o.Describes err := by
  cases err with
  | none => nofun
  | some err => exact List.forall_mem_singleton.mpr (htell err)

theorem Config.measure_describes (c : Config) (op path : Bytes) (err : Option ε) :
    ∀ o ∈ c.measure op path err, o.Describes err := by
  rw [Config.measure]
  split
  · simp only [List.forall_mem_append, List.forall_mem_cons]
    refine ⟨⟨⟨trivial, outcome_describes err, nofun⟩,
      category_describes err fun e => ⟨e, rfl, rfl⟩⟩, ?_⟩
    split
    · exact List.forall_mem_singleton.mpr (outcome_describes err)
    · nofun
  · nofun

theorem Config.debugError_describes (c : Config) (op : Bytes) (err : Option ε) :
    ∀ o ∈ c.debugError op err, o.Describes err := by
  rw [Config.debugError]
  split
  · exact category_describes err fun e => ⟨e, rfl, rfl⟩
  · nofun

/-- `Do`, when the client is open and the route is known: the call is executed, and the
span ends without an error. -/
theorem Config.do_eq (c : Config) {env : Env σ ε} {route : Bytes} {w : σ}
    (hclosed : env.closed w = false) (hroute : route ∈ canonicalRoutes) (op : Bytes) :
    let r := c.execute env op route (env.spanFactory op w)
    c.do env op route w = ⟨r.world, (if c.logger then [.debugRequest op route] else []) ++ r.seen ++
      c.measure op route r.err ++ c.debugError op r.err ++ [.endSpan none], r.err⟩ := by
  rw [Config.do, if_neg (ne_true_of_eq_false hclosed), if_neg (not_not_intro hroute)]

theorem Config.do_once (c : Config) (env : Env σ ε) (op route : Bytes) (w : σ) :
    (c.do env op route w).seen.Nodup := by
  rw [Config.do]
  by_cases hclosed : env.closed w = true
  · rw [if_pos hclosed]
    exact .nil
  by_cases hroute : route ∈ canonicalRoutes
  · rw [if_neg hclosed, if_neg (not_not_intro hroute)]
    rcases (c.execute_spec env op route (env.spanFactory op w)).2 with hseen | ⟨cb, hseen⟩
    all_goals
      cases herr : (c.execute env op route (env.spanFactory op w)).err <;>
        cases hlogger : c.logger <;> cases hmetrics : c.metrics <;>
        cases hmutation : isMutation route <;>
        simp [hseen, herr, Config.measure, Config.debugError, hlogger, hmetrics, hmutation]
  · rw [if_neg hclosed, if_pos hroute]
    exact .nil

/-- **All observers of a call are told one outcome** exactly when the call is refused
before its span starts, or succeeds. -/
theorem Config.oneOutcome_iff (c : Config) (env : Env σ ε) (op route : Bytes) (w : σ) :
    OneOutcome (c.do env op route w) ↔
      env.closed w = true ∨ route ∉ canonicalRoutes ∨
        c.Succeeds env op route (env.spanFactory op w) := by
  cases hclosed : env.closed w with
  | true =>
    refine ⟨fun _ => .inl rfl, fun _ => ⟨?_, c.do_once env op route w⟩⟩
    rw [Config.do, if_pos hclosed]
    nofun
  | false =>
    by_cases hroute : route ∈ canonicalRoutes
    · have hsucceeds := (c.execute_spec env op route (env.spanFactory op w)).1
      constructor
      · intro h
        have hspan := h.same (.endSpan none)
        rw [c.do_eq hclosed hroute] at hspan
        exact .inr (.inr (hsucceeds.mp (hspan (by simp)).symm))
      · rintro (h | h | h)
        · cases h
        · exact absurd hroute h
        · refine ⟨?_, c.do_once env op route w⟩
          rw [c.do_eq hclosed hroute]
          simp only [List.forall_mem_append]
          refine ⟨⟨⟨⟨?_, c.execute_describes env op route _⟩, c.measure_describes op route _⟩,
            c.debugError_describes op _⟩, ?_⟩
          · split
            · exact List.forall_mem_singleton.mpr trivial
            · nofun
          · exact List.forall_mem_singleton.mpr (hsucceeds.mpr h).symm
    · refine ⟨fun _ => .inr (.inl hroute), fun _ => ⟨?_, c.do_once env op route w⟩⟩
      rw [Config.do, if_neg (ne_true_of_eq_false hclosed), if_pos hroute]
      nofun

end

/-- A Gateway that rejects every request, behind breakers that are closed. -/
def rejecting : Env Unit GoError where
  ctxErr w := (w, none)
  timer _ w := (w, true)
  int63n _ w := (w, 0)
  closed _ := false
  unknownRoute path := .text (bytes "client: unknown route: " ++ path)
  spanFactory _ w := w
  now w := (w, 1)
  breaker _ _ := newBreaker 5 0
  setBreaker _ _ w := w
  waitEndpoint _ w := (w, none)
  rateLimitWait _ w := w
  transport op _ w := (w, some (GoError.new (bytes "1008") op []))

/-- **The span of a failed call ends without an error**: an order is rejected, which the
breaker, the metrics and the caller learn, and the span is ended as a success. -/
theorem Config.rejected_span :
    let c : Config := { metrics := true, mutationBreaker := some 0 }
    let r := c.do rejecting (bytes "place") (bytes "/trade/TradeEntrust") ()
    r.err = some (GoError.new (bytes "1008") (bytes "place") []) ∧
    r.seen = [.onFailure 0, .httpRequest (bytes "place"),
      .httpLatency (bytes "place") (bytes "error"), .httpError (bytes "place") .api,
      .orderOutcome (bytes "place") (bytes "error"), .endSpan none] := by
  decide +kernel

end HstongApi.Client
