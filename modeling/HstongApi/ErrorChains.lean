import HstongApi.Bytes

/-!
# Errors that wrap errors

An error is what the package `errors` can see of it: the value by which it is compared, its text, its
method `Is`, and the errors that `Unwrap` gives. An error without a method `Is` has one that is never
true; one without `Unwrap`, or whose `Unwrap` gives nil, has an empty list.
-/

namespace HstongApi

/-- An error, with the values by which errors are compared. -/
inductive Err (ι : Type)
  | node (value : ι) (text : Bytes) (method : ι → Bool) (unwrap : List (Err ι))

namespace Err

variable {ι : Type}

/-- `Error` -/
def text : Err ι → Bytes
  | .node _ text _ _ => text

/-- An error by which nothing is wrapped. -/
def leaf (value : ι) (text : Bytes) : Err ι := .node value text (fun _ => false) []

/-- `fmt.Errorf` with one `%w` -/
def wrapping (value : ι) (text : Bytes) (cause : Err ι) : Err ι :=
  .node value text (fun _ => false) [cause]

variable [DecidableEq ι] (comparable : ι → Bool) (target : ι)

mutual
/-- `errors.Is` for an error that is not nil -/
def is : Err ι → Bool
  | .node value _ method unwrap =>
    comparable target && value = target || method target || isAny unwrap

/-- Whether one of them is. -/
def isAny : List (Err ι) → Bool
  | [] => false
  | e :: es => is e || isAny es
end

/-- `errors.Is` -/
def errorsIs : Option (Err ι) → Option ι → Bool
  | some err, some target => is comparable target err
  | none, none => true
  | none, some _ | some _, none => false

@[simp] theorem is_leaf (value : ι) (text : Bytes) :
    is comparable target (leaf value text) = (comparable target && value = target) := by
  simp [leaf, is, isAny]

@[simp] theorem is_wrapping (value : ι) (text : Bytes) (cause : Err ι) :
    is comparable target (wrapping value text cause) =
      (comparable target && value = target || is comparable target cause) := by
  simp [wrapping, is, isAny]

end Err

end HstongApi
