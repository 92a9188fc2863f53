/-!
# How a remote call fails

A call to another program that fails does so with a status: a code and a message. The codes have
numbers and descriptions of their own.
-/

namespace Countersign

/-- **What kind of failure a status reports.** -/
inductive StatusCode where
  | ok
  | cancelled
  | unknown
  | invalidArgument
  | deadlineExceeded
  | notFound
  | alreadyExists
  | permissionDenied
  | resourceExhausted
  | failedPrecondition
  | aborted
  | outOfRange
  | unimplemented
  | internal
  | unavailable
  | dataLoss
  | unauthenticated
deriving DecidableEq

namespace StatusCode

/-- All codes, each at the place of its number. -/
def all : List StatusCode :=
  [.ok, .cancelled, .unknown, .invalidArgument, .deadlineExceeded, .notFound, .alreadyExists,
   .permissionDenied, .resourceExhausted, .failedPrecondition, .aborted, .outOfRange,
   .unimplemented, .internal, .unavailable, .dataLoss, .unauthenticated]

/-- The code of a number; numbers without one are unknown. -/
def ofNumber (n : Nat) : StatusCode :=
  all.getD n .unknown

/-- **The code in words.** -/
def description : StatusCode → String
  | .ok => "The operation completed successfully"
  | .cancelled => "The operation was cancelled"
  | .unknown => "Unknown error"
  | .invalidArgument => "Client specified an invalid argument"
  | .deadlineExceeded => "Deadline expired before operation could complete"
  | .notFound => "Some requested entity was not found"
  | .alreadyExists => "Some entity that we attempted to create already exists"
  | .permissionDenied => "The caller does not have permission to execute the specified operation"
  | .resourceExhausted => "Some resource has been exhausted"
  | .failedPrecondition => "The system is not in a state required for the operation's execution"
  | .aborted => "The operation was aborted"
  | .outOfRange => "Operation was attempted past the valid range"
  | .unimplemented => "Operation is not implemented or not supported"
  | .internal => "Internal error"
  | .unavailable => "The service is currently unavailable"
  | .dataLoss => "Unrecoverable data loss or corruption"
  | .unauthenticated => "The request does not have valid authentication credentials"

end StatusCode

/-- **Why a call failed.** -/
structure Status where
  code : StatusCode
  message : String
deriving DecidableEq

namespace Status

/-- The status in words. -/
def describe (s : Status) : String :=
  s.code.description ++ ": " ++ s.message

/-- Nothing listens at the other end. -/
def unreachable : Status := ⟨.unavailable, "tcp connect error"⟩

end Status

end Countersign
