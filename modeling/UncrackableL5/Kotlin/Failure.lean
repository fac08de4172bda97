import UncrackableL5.Kotlin.Runtime

/-!
# Exceptions of an attempt

The classes that the status texts tell apart, with `IOException` above some of them, and the chain
of causes.
-/
namespace UncrackableL5

inductive ExceptionClass where
  | flagStorage
  -- the subclasses of `IOException`
  | protocol
  | sslPeerUnverified
  | sslHandshake
  | unknownHost
  | connect
  | socketTimeout
  | otherIo
  -- `CertificateException` and its subclasses
  | certificate
  | strongBoxUnavailable
  -- `ProviderException` and its subclasses but the last one
  | provider
  | interrupted
  | illegalArgument
  | illegalState
  | other
  deriving DecidableEq, Repr

/-- `is IOException` -/
def ExceptionClass.isIo : ExceptionClass → Bool
  | .protocol | .sslPeerUnverified | .sslHandshake | .unknownHost | .connect | .socketTimeout
  | .otherIo => true
  | _ => false

/-- An exception: its class, and those of its causes, one behind the other. -/
structure Failure where
  self : ExceptionClass
  causes : List ExceptionClass
  deriving DecidableEq, Repr

namespace Failure

/-- An exception without a cause. -/
def new (self : ExceptionClass) : Failure where
  self := self
  causes := []

/-- `hasCause<CertificateException>()`, which looks at eight exceptions. -/
def hasCertificateCause (failure : Failure) : Bool :=
  ((failure.self :: failure.causes).take 8).any fun current => current = .certificate

end Failure

end UncrackableL5
