import HstongApi.Errs
import HstongApi.Routes

/-!
# Retries

A policy makes several attempts at a query and one at a mutation. The class of a path is found by
stripping an alias suffix and looking in a closed set of paths. This is not how `NormalizePath`
does it, which strips a suffix only if a route is left, and `isMutation_iff` says that the two
agree on the mutations.

The context, the timer, the random numbers and the attempt itself are functions on a world about
which nothing is known. A run returns the number of its attempts and an error, as the source has it.
What it has really called is seen from the world: with a world that keeps a record of every call of
the attempt function and of every error of the context (`Env.recording`, `recording`) the run is the
same, and the record is what the results below speak of (`Policy.calls`). So a run that claims an
attempt without having made it would not meet them.

A mutation is attempted once at most, whatever the policy says, and a query as often as the policy
has it (`doRoute_contract`); and if every attempt ends in an error that may be retried, no attempt is
left out (`doRoute_exhausts`).
-/

namespace HstongApi.Retry

open Routes

/-! ## Classes of paths -/

/-- `Class` -/
inductive Class
  | query
  | mutation
  deriving DecidableEq

/-- `mutationPaths` -/
def mutationPaths : List Bytes :=
  [bytes "/trade/TradeEntrust",
    bytes "/trade/TradeCancelEntrust",
    bytes "/trade/TradeBatchCancelEntrust",
    bytes "/trade/TradeChangeEntrust",
    bytes "/trade/FuturesEntrust",
    bytes "/trade/FuturesCancelEntrust",
    bytes "/trade/FuturesModifyEntrust",
    bytes "/trade/AlgoAddOrder",
    bytes "/trade/AlgoCancelOrder",
    bytes "/trade/AlgoCancelEntrust",
    bytes "/trade/AlgoChangeOrder",
    bytes "/trade/AlgoActionOrder"]

/-- `stripAliasSuffix` -/
def stripAliasSuffix (p : Bytes) : Bytes :=
  let stripped := trimSuffix p aliasSuffixMsgType
  if stripped ≠ p then stripped else trimSuffix p aliasSuffixRequest

/-- `IsMutation` -/
def isMutation (path : Bytes) : Bool := mutationPaths.contains (stripAliasSuffix path)

/-- `ClassForPath` -/
def classForPath (path : Bytes) : Class := if isMutation path then .mutation else .query

theorem canonical_of_mutation {p : Bytes} (hp : p ∈ mutationPaths) : p ∈ canonicalRoutes := by
  have hall : ∀ q ∈ mutationPaths, q ∈ canonicalRoutes := by decide +kernel
  exact hall p hp

/-- What is left of a route with its suffix stripped is the route. -/
theorem stripAliasSuffix_of_canonical {p : Bytes} (hp : p ∈ canonicalRoutes) :
    stripAliasSuffix p = p := by
  obtain ⟨hmsgType, hrequest⟩ := not_suffix_of_canonical hp
  simp only [stripAliasSuffix]
  rw [trimSuffix_of_not_suffix hmsgType, if_neg (not_not_intro rfl),
    trimSuffix_of_not_suffix hrequest]

/-- **The two ways to strip an alias suffix agree on the mutations.** -/
theorem isMutation_iff (path : Bytes) :
    isMutation path = true ↔ normalizePath path ∈ mutationPaths := by
  rw [isMutation, List.contains_iff_mem]
  by_cases hcanonical : path ∈ canonicalRoutes
  · rw [stripAliasSuffix_of_canonical hcanonical, normalizePath, if_pos hcanonical]
  · have hpath : path ∉ mutationPaths := fun h => hcanonical (canonical_of_mutation h)
    simp only [normalizePath, if_neg hcanonical, stripAliasSuffix]
    by_cases hmsgType : trimSuffix path aliasSuffixMsgType = path
    · -- only the shorter suffix can be there
      simp only [hmsgType, ne_eq, not_true_eq_false, false_and, if_false]
      split
      · rfl
      · rename_i hnot
        refine ⟨fun h => ?_, fun h => absurd h hpath⟩
        by_cases hrequest : trimSuffix path aliasSuffixRequest = path
        · exact absurd (hrequest ▸ h) hpath
        · exact absurd ⟨hrequest, canonical_of_mutation h⟩ hnot
    · -- then the path does not end in the shorter suffix
      have hrequest : trimSuffix path aliasSuffixRequest = path :=
        trimSuffix_of_not_suffix (not_suffix_both (suffix_of_trimSuffix_ne hmsgType))
      simp only [hmsgType, hrequest, ne_eq, not_false_eq_true, not_true_eq_false, true_and,
        false_and, if_true, if_false]
      split
      · rfl
      · rename_i hnot
        exact ⟨fun h => absurd (canonical_of_mutation h) hnot, fun h => absurd h hpath⟩

/-! ## The policy -/

/-- `Policy` -/
structure Policy where
  /-- the attempts, the first one included; less than one is taken for one -/
  maxAttempts : ℤ := 0
  /-- the delay before the second attempt; without it there are no delays -/
  baseBackoff : Int64 := 0
  /-- the longest delay, if it is positive -/
  maxBackoff : Int64 := 0
  /-- half of each delay is drawn at random -/
  jitter : Bool := false

/-- What a run finds around it. Every look at the world may change it. -/
structure Env (σ ε : Type) where
  /-- `ctx.Err` -/
  ctxErr : σ → σ × Option ε
  /-- whether a timer fires before the context is done -/
  timer : Int64 → σ → σ × Bool
  /-- `rand.Int63n` -/
  int63n : Int64 → σ → σ × Int64

/-- The end of a run: the world, and what it returns. -/
structure Run (σ ε : Type) where
  world : σ
  attempts : ℤ
  err : Option ε

section

variable {σ ε : Type}

/-- `sleepCtx` -/
def sleepCtx (env : Env σ ε) (d : Int64) (w : σ) : σ × Option ε :=
  if d ≤ 0 then env.ctxErr w
  else
    match env.timer d w with
    | (w, true) => (w, none)
    | (w, false) => env.ctxErr w

/-- The loop of `Delay`, with the rounds that are left; `*=` wraps around. -/
def Policy.grow (p : Policy) : ℕ → Int64 → Int64
  | 0, d => d
  | rounds + 1, d =>
    if 0 < p.maxBackoff ∧ p.maxBackoff ≤ d then d
    else if d * 2 ≤ 0 then p.maxBackoff
    else p.grow rounds (d * 2)

/-- `Delay` -/
def Policy.delay (p : Policy) (env : Env σ ε) (n : ℤ) (w : σ) : σ × Int64 :=
  if p.baseBackoff ≤ 0 ∨ n < 1 then (w, 0)
  else
    let d := p.grow (n - 1).toNat p.baseBackoff
    let d := if 0 < p.maxBackoff ∧ p.maxBackoff < d then p.maxBackoff else d
    if p.jitter ∧ 0 < d ∧ 0 < d / 2 then
      let (w, r) := env.int63n (d / 2 + 1) w
      (w, d / 2 + r)
    else (w, d)

variable [ErrorChain ε]

/-- The loop of `Do`. -/
def Policy.doLoop (p : Policy) (env : Env σ ε) (cls : Class) (fn : σ → σ × Option ε) (max : ℤ)
    (attempts : ℤ) (w : σ) : Run σ ε :=
  match env.ctxErr w with
  | (w, some err) => ⟨w, attempts, some err⟩
  | (w, none) =>
    match fn w with
    | (w, none) => ⟨w, attempts + 1, none⟩
    | (w, some err) =>
      if max ≤ attempts + 1 ∨ cls = .mutation ∨ retryable (some err) = false then
        ⟨w, attempts + 1, some err⟩
      else
        let (w, d) := p.delay env (attempts + 1) w
        match sleepCtx env d w with
        | (w, some serr) => ⟨w, attempts + 1, some serr⟩
        | (w, none) => p.doLoop env cls fn max (attempts + 1) w
termination_by (max - attempts).toNat
decreasing_by omega

/-- The number of attempts that `Do` may make. -/
def Policy.budget (p : Policy) (cls : Class) : ℤ :=
  let max := if cls = .mutation then 1 else p.maxAttempts
  if max < 1 then 1 else max

/-- `Do`; the attempt function may be nil. -/
def Policy.do (p : Policy) (env : Env σ ε) (cls : Class) (fn : Option (σ → σ × Option ε)) (w : σ) :
    Run σ ε :=
  match fn with
  | none => ⟨w, 0, some (ErrorChain.new (bytes "resilience: nil attempt function"))⟩
  | some fn => p.doLoop env cls fn (p.budget cls) 0 w

/-- `DoRoute` -/
def Policy.doRoute (p : Policy) (env : Env σ ε) (path : Bytes) (fn : Option (σ → σ × Option ε))
    (w : σ) : Run σ ε :=
  p.do env (classForPath path) fn w

/-! ## What a run calls -/

/-- A call that may end a run: an attempt, with its result, or a look at a context that is done. -/
inductive Event (ε : Type)
  | attempt (err : Option ε)
  | context (err : ε)
  deriving DecidableEq

/-- The error that a run returns when it ends so. -/
def Event.err : Event ε → Option ε
  | .attempt err => err
  | .context err => some err

/-- The result of the attempt, if it is one. -/
def Event.attempt? : Event ε → Option (Option ε)
  | .attempt err => some err
  | .context _ => none

/-- The results of the attempts, in order. -/
def results (calls : List (Event ε)) : List (Option ε) := calls.filterMap Event.attempt?

/-- A world that keeps a record, in which the errors of the context are noted. -/
def Env.recording (env : Env σ ε) : Env (σ × List (Event ε)) ε where
  ctxErr w :=
    (((env.ctxErr w.1).1, w.2 ++ ((env.ctxErr w.1).2.map .context).toList), (env.ctxErr w.1).2)
  timer d w := (((env.timer d w.1).1, w.2), (env.timer d w.1).2)
  int63n n w := (((env.int63n n w.1).1, w.2), (env.int63n n w.1).2)

/-- An attempt that is noted in the record. -/
def recording (fn : σ → σ × Option ε) (w : σ × List (Event ε)) : (σ × List (Event ε)) × Option ε :=
  (((fn w.1).1, w.2 ++ [.attempt (fn w.1).2]), (fn w.1).2)

/-- The run without the record. -/
def Run.forget (r : Run (σ × List (Event ε)) ε) : Run σ ε := ⟨r.world.1, r.attempts, r.err⟩

/-- **The calls of a run**, as the world has recorded them in the end. -/
def Policy.calls (p : Policy) (env : Env σ ε) (path : Bytes) (fn : σ → σ × Option ε) (w : σ) :
    List (Event ε) :=
  (p.doRoute env.recording path (some (recording fn)) (w, [])).world.2

variable {env : Env σ ε}

omit [ErrorChain ε] in
theorem Policy.delay_recording (p : Policy) (n : ℤ) (w : σ × List (Event ε)) :
    p.delay env.recording n w = (((p.delay env n w.1).1, w.2), (p.delay env n w.1).2) := by
  simp only [delay]
  split
  · rfl
  · generalize (if 0 < p.maxBackoff ∧ p.maxBackoff < _ then p.maxBackoff else _) = d
    split <;> rfl

omit [ErrorChain ε] in
/-- So is a sleep, but for an error of the context. -/
theorem sleepCtx_recording (d : Int64) (w : σ × List (Event ε)) :
    sleepCtx env.recording d w = (((sleepCtx env d w.1).1,
      w.2 ++ ((sleepCtx env d w.1).2.map .context).toList), (sleepCtx env d w.1).2) := by
  simp only [sleepCtx]
  split
  · rfl
  · rcases htimer : env.timer d w.1 with ⟨w', fired⟩
    cases fired <;> simp [Env.recording, htimer]

/-- What holds of the calls of a run that began after some attempts and may come to a number of
them, and of what it returns. -/
structure Kept (attempts max : ℤ) (calls : List (Event ε)) (r : Run σ ε) : Prop where
  counted : r.attempts = attempts + (results calls).length
  bounded : r.attempts ≤ max
  retried : ∀ err ∈ (results calls).dropLast, retryable err = true
  returned : ∃ event, calls.getLast? = some event ∧ r.err = event.err

/-- One more attempt before a run, with an error that may be retried. -/
theorem Kept.cons {attempts max : ℤ} {calls : List (Event ε)} {r : Run σ ε}
    (h : Kept (attempts + 1) max calls r) {err : ε} (hretry : retryable (some err) = true) :
    Kept attempts max (.attempt (some err) :: calls) r := by
  have hresults : results (.attempt (some err) :: calls) = some err :: results calls := rfl
  refine ⟨?_, h.bounded, ?_, ?_⟩
  · rw [hresults, List.length_cons]
    have hcounted : r.attempts = attempts + 1 + (results calls).length := h.counted
    push_cast
    omega
  · rw [hresults]
    intro e he
    cases hrest : results calls with
    | nil =>
      rw [hrest] at he
      cases he
    | cons x rest =>
      rw [hrest, List.dropLast_cons_cons] at he
      rcases List.mem_cons.mp he with rfl | he
      · exact hretry
      · exact h.retried e (hrest ▸ he)
  · obtain ⟨event, hlast, herr⟩ := h.returned
    refine ⟨event, ?_, herr⟩
    rw [List.getLast?_cons, hlast]
    rfl

/-- **A run with a record** is the run without, and its calls are in order. -/
theorem Policy.doLoop_recording (p : Policy) (env : Env σ ε) (cls : Class) (fn : σ → σ × Option ε)
    {max attempts : ℤ} (hlt : attempts < max) (w : σ × List (Event ε)) :
    let r := p.doLoop env.recording cls (recording fn) max attempts w
    r.forget = p.doLoop env cls fn max attempts w.1 ∧
      ∃ calls, r.world.2 = w.2 ++ calls ∧ Kept attempts max calls r := by
  induction hleft : (max - attempts).toNat using Nat.strong_induction_on generalizing attempts w with
  | _ left ih =>
    rw [doLoop, doLoop]
    rcases hctx : env.ctxErr w.1 with ⟨w₁, _ | err⟩
    · have hlook : env.recording.ctxErr w = ((w₁, w.2), none) := by simp [Env.recording, hctx]
      rcases hfn : fn w₁ with ⟨w₂, result⟩
      have hcall : recording fn (w₁, w.2) = ((w₂, w.2 ++ [.attempt result]), result) := by
        simp only [recording, hfn]
      cases result with
      | none =>
        simp only [hlook, hcall, hfn]
        exact ⟨rfl, _, rfl, rfl, hlt, nofun, _, rfl, rfl⟩
      | some err =>
        by_cases hend : max ≤ attempts + 1 ∨ cls = .mutation ∨ retryable (some err) = false
        · simp only [hlook, hcall, hfn, if_pos hend]
          exact ⟨rfl, _, rfl, rfl, hlt, nofun, _, rfl, rfl⟩
        simp only [hlook, hcall, hfn, if_neg hend, delay_recording, sleepCtx_recording]
        obtain ⟨hmax, -, hretry⟩ := not_or.mp hend |>.imp_right not_or.mp
        rcases sleepCtx env _ _ with ⟨w₃, _ | serr⟩
        · -- the rest of the run is recorded behind this attempt
          simp only [Option.map_none, Option.toList_none, List.append_nil]
          obtain ⟨hforget, calls, hcalls, hkept⟩ := ih (max - (attempts + 1)).toNat (by omega)
            (not_le.mp hmax) (w₃, w.2 ++ [.attempt (some err)]) rfl
          exact ⟨hforget, .attempt (some err) :: calls, hcalls.trans (List.append_assoc ..),
            hkept.cons (Bool.not_eq_false _ ▸ hretry)⟩
        · exact ⟨rfl, [.attempt (some err), .context serr], List.append_assoc .., rfl, hlt, nofun, _, rfl,
            rfl⟩
    · have hlook : env.recording.ctxErr w = ((w₁, w.2 ++ [.context err]), some err) := by
        simp [Env.recording, hctx]
      simp only [hlook]
      exact ⟨rfl, _, rfl, (Int.add_zero _).symm, hlt.le, nofun, _, rfl, rfl⟩

theorem Policy.one_le_budget (p : Policy) (cls : Class) : 1 ≤ p.budget cls := by
  cases cls with
  | mutation => exact le_refl 1
  | query =>
    simp only [budget, reduceCtorEq, if_false]
    split
    · exact le_refl 1
    · exact not_lt.mp ‹_›

theorem Policy.budget_le (p : Policy) (cls : Class) : p.budget cls ≤ max 1 p.maxAttempts := by
  cases cls with
  | mutation => exact le_max_left 1 _
  | query =>
    simp only [budget, reduceCtorEq, if_false]
    split
    · exact le_max_left ..
    · exact le_max_right ..

theorem Policy.doRoute_recording (p : Policy) (env : Env σ ε) (path : Bytes) (fn : σ → σ × Option ε)
    (w : σ) :
    let r := p.doRoute env.recording path (some (recording fn)) (w, [])
    r.forget = p.doRoute env path (some fn) w ∧
      Kept 0 (p.budget (classForPath path)) (p.calls env path fn w) r := by
  have hpos : 0 < p.budget (classForPath path) := p.one_le_budget _
  obtain ⟨hforget, calls, hcalls, hkept⟩ := p.doLoop_recording env (classForPath path) fn hpos (w, [])
  refine ⟨hforget, ?_⟩
  rw [Policy.calls, doRoute, Policy.do, hcalls]
  exact hkept

/-- **The contract for retries.** With a world that records the calls the run is the same, and of these
calls the following holds. A path that is an alias of a mutation gets one attempt at most. No path gets
more attempts than the policy has, and there is a next one only after an error that may be retried. The
number of the attempts is returned, with the result of the last one or the error of the context. -/
theorem doRoute_contract (p : Policy) (env : Env σ ε) (path : Bytes) (fn : σ → σ × Option ε)
    (w : σ) :
    let r := p.doRoute env path (some fn) w
    let calls := p.calls env path fn w
    (p.doRoute env.recording path (some (recording fn)) (w, [])).forget = r ∧
    (normalizePath path ∈ mutationPaths → (results calls).length ≤ 1) ∧
    (results calls).length ≤ max 1 p.maxAttempts ∧
    (∀ err ∈ (results calls).dropLast, retryable err = true) ∧
    r.attempts = (results calls).length ∧
    ∃ event, calls.getLast? = some event ∧ r.err = event.err := by
  intro r calls
  obtain ⟨hforget, hkept⟩ := p.doRoute_recording env path fn w
  have hcounted : r.attempts = (results calls).length :=
    (congrArg Run.attempts hforget).symm.trans (hkept.counted.trans (Int.zero_add _))
  have hbounded : ((results calls).length : ℤ) ≤ p.budget (classForPath path) := by
    rw [← hcounted, ← congrArg Run.attempts hforget]
    exact hkept.bounded
  obtain ⟨event, hlast, herr⟩ := hkept.returned
  refine ⟨hforget, fun hmutation => ?_, hbounded.trans (p.budget_le _), hkept.retried, hcounted, event,
    hlast, (congrArg Run.err hforget).symm.trans herr⟩
  have hclass : classForPath path = .mutation := if_pos ((isMutation_iff path).mpr hmutation)
  have hone : p.budget .mutation = 1 := rfl
  rw [hclass, hone] at hbounded
  exact_mod_cast hbounded

/-- **All attempts are made** if each ends in an error that may be retried and the context is never
done: the function is called once for a mutation, and as often as the policy has it for a query. -/
theorem doRoute_exhausts (p : Policy) (env : Env σ ε) (path : Bytes) (fn : σ → σ × Option ε) (w : σ)
    (hctx : ∀ w, (env.ctxErr w).2 = none) (htimer : ∀ d w, (env.timer d w).2 = true)
    (hfn : ∀ w, retryable (fn w).2 = true) :
    (results (p.calls env path fn w)).length =
        (if isMutation path then 1 else max 1 p.maxAttempts) ∧
      (p.doRoute env path (some fn) w).attempts = (results (p.calls env path fn w)).length := by
  obtain ⟨hforget, hkept⟩ := p.doRoute_recording env path fn w
  have hcounted : (p.doRoute env path (some fn) w).attempts = (results (p.calls env path fn w)).length :=
    (congrArg Run.attempts hforget).symm.trans (hkept.counted.trans (Int.zero_add _))
  refine ⟨?_, hcounted⟩
  have hnone : retryable (none : Option ε) = false := rfl
  have hloop : ∀ {cls max attempts w}, max = p.budget cls → 0 ≤ attempts → attempts < max →
      (p.doLoop env cls fn max attempts w).attempts = max := by
    intro cls max attempts w hmax hattempts hlt
    fun_induction p.doLoop env cls fn max attempts w <;> grind [Policy.budget, sleepCtx]
  rw [← hcounted, Policy.doRoute, Policy.do, hloop rfl le_rfl (p.one_le_budget _)]
  grind [Policy.budget, classForPath]

end

/-- A Gateway that is always busy, in a world that stands still. -/
def busy : Unit → Unit × Option GoError := fun w =>
  (w, some (GoError.new (bytes "1011") (bytes "op") []))

def still : Env Unit GoError := ⟨fun w => (w, none), fun _ w => (w, true), fun _ w => (w, 0)⟩

theorem doRoute_contract_busy :
    normalizePath (bytes "/trade/TradeEntrustRequestMsgType") ∈ mutationPaths ∧
    (results (Policy.calls { maxAttempts := 3 } still (bytes "/trade/TradeEntrustRequestMsgType")
      busy ())).length ≤ 1 := by
  have halias : normalizePath (bytes "/trade/TradeEntrustRequestMsgType") ∈ mutationPaths := by
    decide +kernel
  exact ⟨halias, (doRoute_contract { maxAttempts := 3 } still _ busy ()).2.1 halias⟩

/-- A query is tried again until the attempts of the policy are used up. -/
theorem doRoute_exhausts_busy :
    (results (Policy.calls { maxAttempts := 3 } still (bytes "/hq/BasicQot") busy ())).length = 3 := by
  have hretry : retryable (busy ()).2 = true := by decide +kernel
  have hquery : isMutation (bytes "/hq/BasicQot") = false := by decide +kernel
  obtain ⟨hlength, -⟩ := doRoute_exhausts { maxAttempts := 3 } still (bytes "/hq/BasicQot") busy ()
    (fun _ => rfl) (fun _ _ => rfl) fun _ => hretry
  rw [hquery] at hlength
  exact Int.natCast_inj.mp hlength

end HstongApi.Retry
