/-!
# Errors of tunnel identities
-/

namespace Libcfd.Tunnel

/-- `tunnel::Error`, without the two that only sending a request ends with. -/
inductive Error where
  | quickTunnelResponse (message : String)
  | namedTunnelCredentials (message : String)
  | invalidTunnelIdentifier (message : String)
  deriving DecidableEq, Repr

end Libcfd.Tunnel
