import HstongApi.Bytes

/-!
# Errors of a call

An error of the client is a typed error with a status code, a category, a message and the
operation it belongs to, and it may wrap a cause; or it is an error from outside: the end
of a context, an error of the authentication layer, or one that only has a text. The
category of a typed error comes from the table of documented status codes.
-/

namespace HstongApi

/-- `errs.Category` -/
inductive Category
  | success
  | connection
  | timeout
  | api
  | account
  | trading
  | rateLimit
  | unknown
  deriving DecidableEq

/-- A `types.StatusCode`; the empty one is the code of a failure without a code. -/
abbrev StatusCode : Type := Bytes

/-- A Go error. -/
inductive GoError
  /-- an `*errs.Error` without a cause -/
  | typed (code : StatusCode) (category : Option Category) (op message : Bytes)
  /-- an `*errs.Error` that wraps a cause -/
  | wrapped (code : StatusCode) (category : Option Category) (op message : Bytes) (cause : GoError)
  /-- `context.Canceled` -/
  | canceled
  /-- `context.DeadlineExceeded` -/
  | deadlineExceeded
  /-- an `*auth.AuthError` -/
  | auth (code message : Bytes)
  /-- an error of which only the text is known -/
  | text (message : Bytes)
  deriving DecidableEq

namespace GoError

/-- `StatusInvalidParam` -/
def statusInvalidParam : StatusCode := bytes "1016"

/-- `codeTable` -/
def codeTable : List (StatusCode × Category × Bytes) :=
  [(bytes "0000", .success, bytes "success"),
    (bytes "1001", .api, bytes "unknown system error"),
    (bytes "1002", .api, bytes "signature error"),
    (bytes "1003", .api, bytes "data encryption error"),
    (bytes "1004", .connection, bytes "socket not initialized"),
    (bytes "1005", .api, bytes "endpoint deprecated"),
    (bytes "1006", .account, bytes "user not authorized"),
    (bytes "1007", .trading, bytes "duplicate submission"),
    (bytes "1008", .api, bytes "call failed"),
    (bytes "1009", .api, bytes "endpoint not found"),
    (bytes "1010", .api, bytes "illegal request"),
    (bytes "1011", .rateLimit, bytes "service busy, retry later"),
    (bytes "1012", .account, bytes "not logged in"),
    (bytes "1013", .account, bytes "session displaced by another login"),
    (bytes "1014", .account, bytes "login timeout"),
    (bytes "1015", .timeout, bytes "call timeout"),
    (statusInvalidParam, .api, bytes "invalid parameter"),
    (bytes "1017", .connection, bytes "long-connection establishment failed"),
    (bytes "1018", .connection, bytes "reconnecting, retry later"),
    (bytes "20033", .account, bytes "futures trade login timeout"),
    (bytes "40001", .api, bytes "query product info failed"),
    (bytes "40002", .api, bytes "query contract info failed")]

/-- `CategoryForCode` -/
def categoryForCode (code : StatusCode) : Category :=
  ((codeTable.lookup code).map (·.1)).getD .unknown

/-- `MessageForCode` -/
def messageForCode (code : StatusCode) : Bytes :=
  ((codeTable.lookup code).map (·.2)).getD code

/-- `errs.New` -/
def new (code : StatusCode) (op message : Bytes) : GoError :=
  .typed code (some (categoryForCode code)) op (if message = [] then messageForCode code else message)

/-- `errs.Wrap` -/
def wrap (cause : GoError) (code : StatusCode) (op message : Bytes) : GoError :=
  .wrapped code (some (categoryForCode code)) op
    (if message = [] then messageForCode code else message) cause

/-- `CodeOf`; an error without a code has none. -/
def codeOf : GoError → Option StatusCode
  | .typed code _ _ _ | .wrapped code _ _ _ _ => if code = [] then none else some code
  | _ => none

/-- `CategoryOf` -/
def categoryOf : GoError → Category
  | .typed code category _ _ | .wrapped code category _ _ _ =>
    category.getD (categoryForCode code)
  | .canceled | .deadlineExceeded => .timeout
  | .auth .. | .text _ => .unknown

/-- `ReLoginRequired` -/
def reLoginRequired (err : Option GoError) : Bool :=
  match err.bind codeOf with
  | some code => [bytes "1012", bytes "1013", bytes "1014", bytes "20033"].contains code
  | none => false

end GoError

/-! ## Errors that may be retried -/

/-- What `Retryable` reads of an `*errs.Error`. -/
structure TypedError where
  code : StatusCode
  category : Option Category

/-- What the package `errors` makes of an error, and what it finds in one by going through all
that is wrapped in it. -/
class ErrorChain (ε : Type) where
  /-- `errors.New` -/
  new : Bytes → ε
  /-- `errors.Is(err, context.DeadlineExceeded)` -/
  isDeadlineExceeded : ε → Bool
  /-- `errors.Is(err, context.Canceled)` -/
  isCanceled : ε → Bool
  /-- `errors.As(err, &e)` for an `*errs.Error`: the pointer that is found may be nil -/
  asError : ε → Option (Option TypedError)

/-- `Retryable` -/
def retryable {ε : Type} [ErrorChain ε] : Option ε → Bool
  | none => false
  | some err =>
    if ErrorChain.isDeadlineExceeded err || ErrorChain.isCanceled err then true
    else
      match ErrorChain.asError err with
      | some (some e) =>
        if e.category = some .connection ∨ e.category = some .timeout then true
        else [bytes "1011", bytes "1015", bytes "1017", bytes "1018"].contains e.code
      | _ => false

/-- `errors.Is` for an error without a method of its own. -/
def GoError.is (target : GoError) : GoError → Bool
  | .wrapped code category op message cause =>
    .wrapped code category op message cause = target || GoError.is target cause
  | err => err = target

/-- `errors.As` for an `*errs.Error` -/
def GoError.asError : GoError → Option (Option TypedError)
  | .typed code category _ _ | .wrapped code category _ _ _ => some (some ⟨code, category⟩)
  | _ => none

instance : ErrorChain GoError where
  new := .text
  isDeadlineExceeded := GoError.is .deadlineExceeded
  isCanceled := GoError.is .canceled
  asError := GoError.asError

end HstongApi
