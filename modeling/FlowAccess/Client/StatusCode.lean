/-!
# Status codes

The canonical codes with which calls end, their numbers, and the codes that stand for the statuses
of HTTP responses.
-/

namespace FlowAccess

inductive StatusCode where
  | ok
  | cancelled
  | unknown
  | invalidArgument
  | deadlineExceeded
  | notFound
  | alreadyExists
  | permissionDenied
  | resourceExhausted
  | failedPrecondition
  | aborted
  | outOfRange
  | unimplemented
  | internal
  | unavailable
  | dataLoss
  | unauthenticated
  deriving DecidableEq, Inhabited

namespace StatusCode

def all : List StatusCode :=
  [.ok, .cancelled, .unknown, .invalidArgument, .deadlineExceeded, .notFound, .alreadyExists,
    .permissionDenied, .resourceExhausted, .failedPrecondition, .aborted, .outOfRange,
    .unimplemented, .internal, .unavailable, .dataLoss, .unauthenticated]

def name : StatusCode → String
  | .ok => "Ok"
  | .cancelled => "Cancelled"
  | .unknown => "Unknown"
  | .invalidArgument => "InvalidArgument"
  | .deadlineExceeded => "DeadlineExceeded"
  | .notFound => "NotFound"
  | .alreadyExists => "AlreadyExists"
  | .permissionDenied => "PermissionDenied"
  | .resourceExhausted => "ResourceExhausted"
  | .failedPrecondition => "FailedPrecondition"
  | .aborted => "Aborted"
  | .outOfRange => "OutOfRange"
  | .unimplemented => "Unimplemented"
  | .internal => "Internal"
  | .unavailable => "Unavailable"
  | .dataLoss => "DataLoss"
  | .unauthenticated => "Unauthenticated"

def number : StatusCode → Nat
  | .ok => 0
  | .cancelled => 1
  | .unknown => 2
  | .invalidArgument => 3
  | .deadlineExceeded => 4
  | .notFound => 5
  | .alreadyExists => 6
  | .permissionDenied => 7
  | .resourceExhausted => 8
  | .failedPrecondition => 9
  | .aborted => 10
  | .outOfRange => 11
  | .unimplemented => 12
  | .internal => 13
  | .unavailable => 14
  | .dataLoss => 15
  | .unauthenticated => 16

/-- The code of a number; numbers that are not assigned stand for an unknown failure. -/
def ofNumber (n : Int) : StatusCode := (all.find? fun c => (c.number : Int) = n).getD .unknown

/-- The code that comes closest to the status of an HTTP response. -/
def ofHttpStatus (status : Nat) : StatusCode :=
  if 200 ≤ status ∧ status ≤ 299 then .ok
  else
    match status with
    | 400 => .invalidArgument
    | 401 => .unauthenticated
    | 403 => .permissionDenied
    | 404 => .notFound
    | 408 | 504 => .deadlineExceeded
    | 409 => .aborted
    | 412 => .failedPrecondition
    | 429 => .resourceExhausted
    | 499 => .cancelled
    | 501 => .unimplemented
    | 503 => .unavailable
    | status => if 500 ≤ status ∧ status ≤ 599 then .internal else .unknown

@[simp] theorem ofNumber_number (c : StatusCode) : ofNumber c.number = c := by cases c <;> rfl

end StatusCode
end FlowAccess
