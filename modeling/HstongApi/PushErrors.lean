import HstongApi.ErrorChains
import HstongApi.PushAdapter

/-!
# The errors of the push adapter

`translatePushError` puts an `unverifiedError` around an error that matches
`push.ErrSignatureMismatch`, so that it matches the error of the domain package as well. The text
stays, and so does every match. There is one new match besides: like every error, the translated one
matches itself (`is_translate_iff`).

The model of the adapter has the same errors without their chains, and `chain_translate` says that it
translates them in the same way.
-/

namespace HstongApi.PushAdapter

open Err

/-- The values of the errors that are named in the source. `errors.Is` compares an error with its
target only if the target is `comparable`. -/
structure Sentinels (ι : Type) where
  comparable : ι → Bool
  /-- `push.ErrSignatureMismatch` -/
  push : ι
  /-- `domain.ErrSignatureMismatch` -/
  domain : ι

section

variable {ι : Type} [DecidableEq ι] (s : Sentinels ι)

/-- The address of an error that was allocated. Pointers are comparable. -/
def Sentinels.Address : Type := { value : ι // s.comparable value = true }

variable {s}

/-- An `unverifiedError` at an address, with its methods. -/
def unverifiedError (address : s.Address) (cause : Err ι) : Err ι :=
  .node address.1 cause.text
    (fun target => target = s.domain || cause.is s.comparable target) [cause]

/-- `translatePushError` on an error with its chain. The address is that of the new error, if there
is one. -/
def translate (address : s.Address) : Option (Err ι) → Option (Err ι)
  | none => none
  | some err =>
    if err.is s.comparable s.push = false then some err else some (unverifiedError address err)

/-- What an `unverifiedError` matches. -/
theorem is_unverifiedError (address : s.Address) (cause : Err ι) (target : ι) :
    (unverifiedError address cause).is s.comparable target = true ↔
      cause.is s.comparable target = true ∨ target = s.domain ∨ target = address.1 := by
  simp only [unverifiedError, is, isAny, Bool.or_eq_true, Bool.and_eq_true, decide_eq_true_eq,
    Bool.or_false]
  constructor
  · rintro ((⟨-, rfl⟩ | hdomain | his) | his)
    · exact .inr (.inr rfl)
    · exact .inr (.inl hdomain)
    · exact .inl his
    · exact .inl his
  · rintro (his | hdomain | rfl)
    · exact .inr his
    · exact .inl (.inr (.inl hdomain))
    · exact .inl (.inl ⟨address.2, rfl⟩)

/-- **What a translated error matches**: all that the error itself matches; the error of the domain
package if the error is a signature mismatch; and then also itself. The text is that of the error. -/
theorem is_translate_iff (address : s.Address) (err : Option (Err ι)) (target : Option ι) :
    (errorsIs s.comparable (translate address err) target = true ↔
      errorsIs s.comparable err target = true ∨
        errorsIs s.comparable err (some s.push) = true ∧
          (target = some s.domain ∨ target = some address.1)) ∧
      (translate address err).map text = err.map text := by
  cases err with
  | none => exact ⟨by simp [translate, errorsIs], rfl⟩
  | some err =>
    simp only [translate]
    cases hpush : err.is s.comparable s.push with
    | false =>
      rw [if_pos rfl]
      exact ⟨by simp [errorsIs, hpush], rfl⟩
    | true =>
      rw [if_neg (by decide)]
      refine ⟨?_, rfl⟩
      cases target with
      | none => simp [errorsIs]
      | some target => simp [errorsIs, hpush, is_unverifiedError]

/-! ## The errors of the model of the adapter -/

/-- The chain of an error of the adapter, when every error has an address. -/
def PushError.chain (name : PushError → s.Address) : PushError → Err ι
  | .signatureMismatch message =>
    .wrapping (name (.signatureMismatch message)).1 message
      (.leaf s.push (bytes "push: bodySHA1 signature verification failed"))
  | .unverified cause => unverifiedError (name (.unverified cause)) (cause.chain name)
  | .other message => .leaf (name (.other message)).1 message

section

variable {name : PushError → s.Address} (hname : ∀ err, (name err).1 ≠ s.push)
  (hpush : s.comparable s.push = true) (hdomain : s.domain ≠ s.push)

include hname hpush hdomain

theorem PushError.isMismatch_iff (err : PushError) :
    (err.chain name).is s.comparable s.push = true ↔ err.isMismatch = true := by
  induction err with
  | signatureMismatch message => simp [chain, isMismatch, hpush]
  | unverified cause ih =>
    simp only [chain, isMismatch, is_unverifiedError, hdomain.symm, (hname _).symm, or_false, ih]
  | other message => simp [chain, isMismatch, hname]

/-- **The adapter translates its errors as the source does.** -/
theorem PushError.chain_translate (err : PushError) :
    some ((translatePushError err).chain name) =
      translate (name (.unverified err)) (some (err.chain name)) := by
  have hmismatch := err.isMismatch_iff hname hpush hdomain
  rw [translatePushError, translate]
  by_cases h : err.isMismatch = true
  · rw [if_pos h, hmismatch.mpr h, if_neg (by decide), chain]
  · rw [if_neg h, if_pos (Bool.eq_false_iff.mpr (mt hmismatch.mp h))]

end

end

/-- A signature mismatch, with addresses for values. -/
def mismatch : Err ℕ := .wrapping 2 (bytes "push: bodySHA1 signature verification failed: ")
  (.leaf 0 (bytes "push: bodySHA1 signature verification failed"))

/-- The translated error matches itself, and the error that was translated does not match it. -/
theorem translate_matches_itself :
    let s : Sentinels ℕ := ⟨fun _ => true, 0, 1⟩
    let address : s.Address := ⟨3, rfl⟩
    errorsIs s.comparable (translate address (some mismatch)) (some 3) = true ∧
      errorsIs s.comparable (some mismatch) (some 3) = false ∧ 3 ≠ s.domain := by
  decide +kernel

end HstongApi.PushAdapter
