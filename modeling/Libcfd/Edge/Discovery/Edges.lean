import Libcfd.Edge.Error
import Libcfd.Foundation.Firsts
import Libcfd.Rpc.Error

/-!
# Edge discovery: the addresses

`discover_edges` resolves the targets of the SRV records, or the well-known hostnames if there are no
records. It does not turn to them when there are records and none of their targets resolves.
-/

namespace Libcfd.Edge.Discovery

open Libcfd.Firsts Libcfd.Rpc

/-- `FALLBACK_EDGE_PORT`. -/
def fallbackEdgePort : UInt16 := 7844

/-- `FALLBACK_EDGES`. -/
def fallbackEdges : List String := ["region1.v2.argotunnel.com", "region2.v2.argotunnel.com"]

structure SocketAddr (IpAddr : Type) where
  ip : IpAddr
  port : UInt16
  deriving DecidableEq, Repr

/-- What a query for SRV records returns: the targets and their ports. -/
abbrev SrvRecords : Type := Except IoError (List (String × UInt16))

variable {IpAddr : Type}

/-- What `lookup_host` returns for a host, the calls counted from 0. It may be another time it is
called. -/
abbrev LookupHost (IpAddr : Type) : Type :=
  Nat → String → Except IoError (List (SocketAddr IpAddr))

/-! ## The code -/

/-- `srv_lookup`, the resolvers answering in turn. -/
def srvLookup : List SrvRecords → SrvRecords
  | [] => .ok []
  | .ok (record :: records) :: _ => .ok (record :: records)
  | _ :: answers => srvLookup answers

section Code

variable [DecidableEq IpAddr]

/-- `resolve_host`, with what `lookup_host` returns. -/
def resolveHost : Except IoError (List (SocketAddr IpAddr)) → List IpAddr
  | .ok addrs => (addrs.map (·.ip)).foldl pushNew []
  | .error _ => []

/-- The loop over hosts, each with its port. -/
def pushHosts (lookupHost : LookupHost IpAddr) :
    Nat → List (SocketAddr IpAddr) → List (String × UInt16) → List (SocketAddr IpAddr)
  | _, edges, [] => edges
  | call, edges, (host, port) :: hosts =>
      let ips := resolveHost (lookupHost call host)
      pushHosts lookupHost (call + 1) ((ips.map (⟨·, port⟩)).foldl pushNew edges) hosts

/-- `discover_edges`, with what `srv_lookup` returns. -/
def discoverEdges (srv : SrvRecords) (lookupHost : LookupHost IpAddr) :
    Except Error (List (SocketAddr IpAddr)) :=
  let edges :=
    match srv with
    | .ok (record :: records) => pushHosts lookupHost 0 [] (record :: records)
    | _ => pushHosts lookupHost 0 [] (fallbackEdges.map (·, fallbackEdgePort))
  if edges.isEmpty then .error (.other "no edge addresses could be resolved") else .ok edges

end Code

/-! ## What there is to be found -/

/-- The addresses a call of `lookup_host` has found. -/
def ipsOf : Except IoError (List (SocketAddr IpAddr)) → List IpAddr
  | .ok addrs => addrs.map (·.ip)
  | .error _ => []

/-- All that hosts resolve to, in order. -/
def addressesOf (lookupHost : LookupHost IpAddr) :
    Nat → List (String × UInt16) → List (SocketAddr IpAddr)
  | _, [] => []
  | call, (host, port) :: hosts =>
      (ipsOf (lookupHost call host)).map (⟨·, port⟩) ++ addressesOf lookupHost (call + 1) hosts

def targetsOf : SrvRecords → List (String × UInt16)
  | .ok records => records
  | .error _ => []

section Addresses

variable (srv : SrvRecords) (lookupHost : LookupHost IpAddr)

def srvAddresses : List (SocketAddr IpAddr) := addressesOf lookupHost 0 (targetsOf srv)

/-- What the well-known hostnames resolve to, after the targets have been resolved. -/
def fallbackAddresses : List (SocketAddr IpAddr) :=
  addressesOf lookupHost (targetsOf srv).length (fallbackEdges.map (·, fallbackEdgePort))

/-- The source to be used. -/
def sourceAddresses : List (SocketAddr IpAddr) :=
  if (srvAddresses srv lookupHost).isEmpty then fallbackAddresses srv lookupHost
  else srvAddresses srv lookupHost

/-- There is an error only if nothing resolves. Otherwise the addresses are those of the source, each
where it comes first. -/
structure Discovers [DecidableEq IpAddr] : Prop where
  error : ∀ e, discoverEdges srv lookupHost = .error e →
    srvAddresses srv lookupHost = [] ∧ fallbackAddresses srv lookupHost = []
  ok : ∀ edges, discoverEdges srv lookupHost = .ok edges →
    edges ≠ [] ∧ IsFirsts (sourceAddresses srv lookupHost) edges

end Addresses

/-! ## The source that is used -/

/-- The source `discover_edges` turns to. -/
def usedAddresses (srv : SrvRecords) (lookupHost : LookupHost IpAddr) :
    List (SocketAddr IpAddr) :=
  if (targetsOf srv).isEmpty then fallbackAddresses srv lookupHost else srvAddresses srv lookupHost

theorem sourceAddresses_eq_nil {srv : SrvRecords} {lookupHost : LookupHost IpAddr}
    (h : sourceAddresses srv lookupHost = []) :
    srvAddresses srv lookupHost = [] ∧ fallbackAddresses srv lookupHost = [] := by
  unfold sourceAddresses at h
  split at h
  · next hempty => exact ⟨List.isEmpty_iff.mp hempty, h⟩
  · next hne => exact absurd (List.isEmpty_iff.mpr h) hne

theorem usedAddresses_eq {srv : SrvRecords} {lookupHost : LookupHost IpAddr}
    (h : targetsOf srv = [] ∨ srvAddresses srv lookupHost ≠ [] ∨
      fallbackAddresses srv lookupHost = []) :
    usedAddresses srv lookupHost = sourceAddresses srv lookupHost := by
  unfold usedAddresses sourceAddresses
  by_cases htargets : targetsOf srv = []
  · have hsrv : srvAddresses srv lookupHost = [] := by
      rw [srvAddresses, htargets]
      rfl
    rw [if_pos (List.isEmpty_iff.mpr htargets), if_pos (List.isEmpty_iff.mpr hsrv)]
  · rw [if_neg fun hempty => htargets (List.isEmpty_iff.mp hempty)]
    by_cases hsrv : srvAddresses srv lookupHost = []
    · have hfallback : fallbackAddresses srv lookupHost = [] :=
        (h.resolve_left htargets).resolve_left fun hne => hne hsrv
      rw [if_pos (List.isEmpty_iff.mpr hsrv), hsrv, hfallback]
    · rw [if_neg fun hempty => hsrv (List.isEmpty_iff.mp hempty)]

/-! ## The loops -/

section Loops

variable [DecidableEq IpAddr]

theorem pushHosts_eq (lookupHost : LookupHost IpAddr) (call : Nat)
    (edges : List (SocketAddr IpAddr)) (hosts : List (String × UInt16)) :
    pushHosts lookupHost call edges hosts =
      (addressesOf lookupHost call hosts).foldl pushNew edges := by
  induction hosts generalizing call edges with
  | nil => rfl
  | cons host hosts ih =>
      obtain ⟨host, port⟩ := host
      have hpush : ((resolveHost (lookupHost call host)).map (⟨·, port⟩)).foldl pushNew edges =
          ((ipsOf (lookupHost call host)).map (SocketAddr.mk · port)).foldl pushNew edges := by
        unfold resolveHost ipsOf
        split
        · exact foldl_pushNew_firsts _ _ _
        · rfl
      rw [addressesOf, List.foldl_append, ← hpush, ← ih]
      rfl

theorem discoverEdges_eq (srv : SrvRecords) (lookupHost : LookupHost IpAddr) :
    discoverEdges srv lookupHost =
      if ((usedAddresses srv lookupHost).foldl pushNew []).isEmpty then
        .error (.other "no edge addresses could be resolved")
      else .ok ((usedAddresses srv lookupHost).foldl pushNew []) := by
  unfold discoverEdges
  match srv with
  | .ok (record :: records) =>
      simp only [pushHosts_eq]
      rfl
  | .ok [] =>
      simp only [pushHosts_eq]
      rfl
  | .error e =>
      simp only [pushHosts_eq]
      rfl

theorem discoverEdges_eq_error (srv : SrvRecords) (lookupHost : LookupHost IpAddr) :
    (∃ e, discoverEdges srv lookupHost = .error e) ↔ usedAddresses srv lookupHost = [] := by
  rw [discoverEdges_eq, ← foldl_pushNew_eq_nil]
  split
  · next h => exact iff_of_true ⟨_, rfl⟩ (List.isEmpty_iff.mp h)
  · next h => exact iff_of_false nofun fun hnil => h (List.isEmpty_iff.mpr hnil)

theorem discoverEdges_eq_ok {srv : SrvRecords} {lookupHost : LookupHost IpAddr}
    {edges : List (SocketAddr IpAddr)} (h : discoverEdges srv lookupHost = .ok edges) :
    edges ≠ [] ∧ IsFirsts (usedAddresses srv lookupHost) edges := by
  rw [discoverEdges_eq] at h
  split at h
  · cases h
  · next hne =>
      obtain rfl := Except.ok.inj h
      exact ⟨fun hnil => hne (List.isEmpty_iff.mpr hnil), isFirsts_firsts _⟩

/-! ## When it discovers what there is -/

/-- **The fallback is missed** just in case there are SRV records, no target of them resolves, and a
well-known hostname would. -/
theorem discovers_iff (srv : SrvRecords) (lookupHost : LookupHost IpAddr) :
    Discovers srv lookupHost ↔
      targetsOf srv = [] ∨ srvAddresses srv lookupHost ≠ [] ∨
        fallbackAddresses srv lookupHost = [] := by
  constructor
  · intro h
    by_contra hnot
    rw [not_or, not_or, not_not] at hnot
    obtain ⟨htargets, hsrv, hfallback⟩ := hnot
    have hused : usedAddresses srv lookupHost = [] := by
      rw [usedAddresses, if_neg fun hempty => htargets (List.isEmpty_iff.mp hempty)]
      exact hsrv
    obtain ⟨e, herror⟩ := (discoverEdges_eq_error srv lookupHost).mpr hused
    exact hfallback (h.error e herror).2
  · intro h
    have hused := usedAddresses_eq h
    constructor
    · intro e herror
      apply sourceAddresses_eq_nil
      rw [← hused]
      exact (discoverEdges_eq_error srv lookupHost).mp ⟨e, herror⟩
    · intro edges hok
      rw [← hused]
      exact discoverEdges_eq_ok hok

end Loops

/-- One record, of which the target does not resolve, and a well-known hostname that does. -/
def oldRecord : SrvRecords := .ok [("old.argotunnel.com", 7844)]

def lookupRegion1 : LookupHost (List UInt8) := fun _ host =>
  if host = "region1.v2.argotunnel.com" then .ok [⟨[198, 41, 192, 7], 7844⟩]
  else .error ⟨"failed to lookup address information"⟩

theorem not_discovers_oldRecord : ¬ Discovers oldRecord lookupRegion1 := by
  intro h
  have herror : discoverEdges oldRecord lookupRegion1 =
      .error (.other "no edge addresses could be resolved") := by decide
  exact absurd (h.error _ herror).2 (by decide)

end Libcfd.Edge.Discovery
