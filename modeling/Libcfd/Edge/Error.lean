import Mathlib.Control.Monad.Basic

/-!
# Errors of the edge path

The edge side tells its errors apart in two places only: a duplicate connection sends the reconnect
loop to the next edge, and a permanent registration failure ends it. The other variants of
`edge::Error` are kept as far as the source builds them from a text of its own.
-/

namespace Libcfd.Edge

inductive RegistrationFailure where
  | retryable (cause : String) (retryAfter : Int)
  | permanent (cause : String)
  deriving DecidableEq, Repr

inductive Error where
  | duplicateConnection (cause : String)
  | registration (failure : RegistrationFailure)
  | quic (message : String)
  | h2 (message : String)
  -- discovery, I/O and control-stream failures
  | other (message : String)
  deriving DecidableEq, Repr

def Error.isPermanent : Error → Bool
  | .registration (.permanent _) => true
  | _ => false

end Libcfd.Edge
