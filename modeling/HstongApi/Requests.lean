import HstongApi.Domain
import HstongApi.Errs

/-!
# Calls of a service

A method of a service checks its arguments, sends at most one request, and turns the reply into its
result. The checks are in the monad `Checked`: a check passes, or it gives the error that the method
returns, or it panics. A `Call` is the whole method, up to what the Gateway replies.
-/

namespace HstongApi

/-! ## Checks -/

/-- What may end with an error or a panic. -/
abbrev Checked : Type → Type := ExceptT GoError (Except Panic)

namespace Checked

/-- **It comes to a value**, without an error and without a panic. -/
def Yields {α : Type} (x : Checked α) (a : α) : Prop := x.run = .ok (.ok a)

instance {α : Type} [DecidableEq α] (x : Checked α) (a : α) : Decidable (Yields x a) :=
  inferInstanceAs (Decidable (x.run = .ok (.ok a)))

/-- `if c { return err }` -/
def reject (c : Prop) [Decidable c] (err : GoError) : Checked Unit :=
  if c then throw err else pure ()

/-- A check that is made under a condition only. -/
def onlyIf (c : Prop) [Decidable c] (x : Checked Unit) : Checked Unit := if c then x else pure ()

/-- The text of an error, if there is one, becomes an error of the operation. -/
def refuse (op : Bytes) (x : Except Panic (Option Bytes)) : Checked Unit :=
  ExceptT.mk (x.map fun
    | none => .ok ()
    | some text => .error (GoError.new GoError.statusInvalidParam op text))

variable {α β : Type}

@[simp] theorem yields_pure {a b : α} : Yields (pure a) b ↔ a = b := by
  simp only [Yields, ExceptT.run_pure]
  exact ⟨fun h => Except.ok.inj (Except.ok.inj h), fun h => h ▸ rfl⟩

/-- One check after another. -/
theorem yields_bind {x : Checked α} {f : α → Checked β} {b : β} :
    Yields (x >>= f) b ↔ ∃ a, Yields x a ∧ Yields (f a) b := by
  simp only [Yields, ExceptT.run_bind]
  match x.run with
  | .error panic | .ok (.error err) => exact iff_of_false nofun (fun ⟨_, h, _⟩ => nomatch h)
  | .ok (.ok a) =>
    refine ⟨fun h => ⟨a, rfl, h⟩, ?_⟩
    rintro ⟨a', ha, h⟩
    cases ha
    exact h

@[simp] theorem yields_then {x : Checked Unit} {y : Checked β} {b : β} :
    Yields (x >>= fun _ => y) b ↔ Yields x () ∧ Yields y b := by
  rw [yields_bind]
  exact ⟨fun ⟨_, hx, hy⟩ => ⟨hx, hy⟩, fun ⟨hx, hy⟩ => ⟨(), hx, hy⟩⟩

@[simp] theorem yields_reject {c : Prop} [Decidable c] {err : GoError} {u : Unit} :
    Yields (reject c err) u ↔ ¬c := by
  unfold reject
  split
  · rename_i hc
    exact iff_of_false nofun (fun hn => hn hc)
  · rename_i hc
    exact iff_of_true rfl hc

@[simp] theorem yields_onlyIf {c : Prop} [Decidable c] {x : Checked Unit} {u : Unit} :
    Yields (onlyIf c x) u ↔ (c → Yields x u) := by
  unfold onlyIf
  split
  · rename_i hc
    exact ⟨fun h _ => h, fun h => h hc⟩
  · rename_i hc
    exact iff_of_true rfl fun h => absurd h hc

@[simp] theorem yields_refuse {op : Bytes} {x : Except Panic (Option Bytes)} {u : Unit} :
    Yields (refuse op x) u ↔ x = .ok none := by
  unfold refuse Yields
  match x with
  | .ok none => exact iff_of_true rfl rfl
  | .error panic | .ok (some text) => exact iff_of_false nofun nofun

/-- A pointer that must not be nil. -/
def require (a : Option α) (err : GoError) : Checked α :=
  match a with
  | some a => pure a
  | none => throw err

@[simp] theorem yields_require {a : Option α} {err : GoError} {b : α} :
    Yields (require a err) b ↔ a = some b := by
  cases a with
  | none => exact iff_of_false nofun nofun
  | some a => rw [require, yields_pure, Option.some.injEq]

/-- **It does not panic.** -/
def Total (x : Checked α) : Prop := Returns x.run

theorem total_pure (a : α) : Total (pure a) := ⟨.ok a, rfl⟩

theorem total_throw (err : GoError) : Total (throw err : Checked α) := ⟨.error err, rfl⟩

theorem total_bind {x : Checked α} {f : α → Checked β} (hx : Total x) (hf : ∀ a, Total (f a)) :
    Total (x >>= f) := by
  obtain ⟨r, hr⟩ := hx
  rw [Total, ExceptT.run_bind, hr]
  cases r with
  | error err => exact ⟨.error err, rfl⟩
  | ok a => exact hf a

theorem total_reject (c : Prop) [Decidable c] (err : GoError) : Total (reject c err) := by
  unfold reject
  split
  · exact total_throw err
  · exact total_pure ()

theorem total_require (a : Option α) (err : GoError) : Total (require a err) := by
  cases a with
  | some a => exact total_pure a
  | none => exact total_throw err

theorem total_lift {x : Except Panic α} : Total (ExceptT.lift x) ↔ Returns x :=
  returns_fmap Except.ok

/-- A loop does not panic if none of its rounds does. -/
theorem total_mapM {f : α → Checked β} (hf : ∀ a, Total (f a)) (l : List α) : Total (l.mapM f) := by
  induction l with
  | nil => exact total_pure []
  | cons a l ih =>
    rw [List.mapM_cons]
    exact total_bind (hf a) fun b => total_bind ih fun _ => total_pure _

end Checked

/-! ## Calls -/

/-- A method that ends at once, or sends a request and goes on with the reply. -/
inductive Call (ω ρ α : Type)
  | done (result : Except Panic (Except GoError α))
  | ask (op route : Bytes) (params : ω) (resume : Except GoError ρ → Except Panic (Except GoError α))

namespace Call

variable {ω ρ α : Type}

/-- The checks, the request, and what is made of the reply. -/
def send (op route : Bytes) (checks : Checked ω) (result : ρ → Checked α) : Call ω ρ α :=
  match checks.run with
  | .error panic => .done (.error panic)
  | .ok (.error err) => .done (.ok (.error err))
  | .ok (.ok params) => .ask op route params fun
    | .error err => .ok (.error err)
    | .ok out => (result out).run

/-- The method sends these parameters. -/
def Sends (c : Call ω ρ α) (params : ω) : Prop := ∃ op route resume, c = .ask op route params resume

/-- The result of the method with a Gateway that replies in this way. -/
def run (gateway : ω → Except GoError ρ) : Call ω ρ α → Except Panic (Except GoError α)
  | .done result => result
  | .ask _ _ params resume => resume (gateway params)

/-- **A request is sent if and only if the checks pass.** -/
theorem sends_send {op route : Bytes} {checks : Checked ω} {result : ρ → Checked α} {params : ω} :
    (send op route checks result).Sends params ↔ checks.Yields params := by
  unfold send Checked.Yields
  match checks.run with
  | .error panic | .ok (.error err) => exact iff_of_false (fun ⟨_, _, _, h⟩ => nomatch h) nofun
  | .ok (.ok a) =>
    refine ⟨?_, fun h => ?_⟩
    · rintro ⟨op', route', resume, h⟩
      injection h with _ _ hparams _
      rw [hparams]
    · cases h
      exact ⟨op, route, _, rfl⟩

/-- The method gets this reply. -/
def Receives (c : Call ω ρ α) (gateway : ω → Except GoError ρ) (out : ρ) : Prop :=
  ∃ params, c.Sends params ∧ gateway params = .ok out

/-- **It returns a value or an error**, whatever the Gateway replies. -/
def Safe (c : Call ω ρ α) : Prop := ∀ gateway, Returns (c.run gateway)

/-- **When it returns a value or an error**: with a Gateway whose reply is typed, exactly if the reply
is good. -/
def SafeIff (c : Call ω ρ α) (typed good : ρ → Prop) : Prop :=
  ∀ gateway, (∀ out, c.Receives gateway out → typed out) →
    (Returns (c.run gateway) ↔ ∀ out, c.Receives gateway out → good out)

/-- If the checks do not panic, then what is made of the reply decides. -/
theorem safeIff_send {op route : Bytes} {checks : Checked ω} {result : ρ → Checked α}
    {typed good : ρ → Prop} (hchecks : checks.Total)
    (hresult : ∀ out, typed out → ((result out).Total ↔ good out)) :
    (send op route checks result).SafeIff typed good := by
  intro gateway htyped
  simp only [Receives, sends_send, Checked.Yields] at htyped ⊢
  obtain ⟨r, hr⟩ := hchecks
  rw [send, hr]
  rw [hr] at htyped
  cases r with
  | error err =>
    refine iff_of_true ⟨.error err, rfl⟩ ?_
    rintro out ⟨params, hparams, -⟩
    cases hparams
  | ok params =>
    cases hreply : gateway params with
    | error err =>
      refine iff_of_true ⟨.error err, by rw [run, hreply]⟩ ?_
      rintro out ⟨params', hparams, hout⟩
      cases hparams
      cases hreply.symm.trans hout
    | ok reply =>
      simp only [run, hreply]
      rw [← Checked.Total, hresult reply (htyped reply ⟨params, rfl, hreply⟩)]
      constructor
      · rintro hgood out ⟨params', hparams, hout⟩
        cases hparams
        cases hreply.symm.trans hout
        exact hgood
      · intro hgood
        exact hgood reply ⟨params, rfl, hreply⟩

/-- If neither the checks nor the conversion panics, the method does not. -/
theorem safe_send {op route : Bytes} {checks : Checked ω} {result : ρ → Checked α}
    (hchecks : checks.Total) (hresult : ∀ out, (result out).Total) :
    (send op route checks result).Safe := by
  intro gateway
  have hiff : (send op route checks result).SafeIff (fun _ => True) fun _ => True :=
    safeIff_send hchecks fun out _ => iff_true_intro (hresult out)
  exact (hiff gateway fun _ _ => trivial).mpr fun _ _ => trivial

end Call

end HstongApi
