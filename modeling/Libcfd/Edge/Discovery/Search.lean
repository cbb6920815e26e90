import Libcfd.Edge.Discovery.Edges
import Libcfd.Edge.Discovery.Message
import Libcfd.Edge.Discovery.Query
import Libcfd.Foundation.Program
import Libcfd.Foundation.Text

/-!
# Edge discovery: the search

`discover_edges` as it runs: it reads `resolv.conf`, asks the resolvers it names and then one of its
own, each with another identifier, until one answers with a record, and looks up the hosts. What the
operating system and the network reply is left open.

The parse of an answer may not come back, and then neither does the search.
-/

namespace Libcfd.Edge.Discovery

open Libcfd.Firsts Libcfd.Rpc Libcfd.Text

/-- What is used of `std::net`: `parse::<IpAddr>` and the addresses of IPv4. -/
structure Net (IpAddr : Type) where
  parse : List Char → Option IpAddr
  v4 : UInt8 → UInt8 → UInt8 → UInt8 → IpAddr

namespace Search

inductive Op (IpAddr : Type) where
  | readResolvConf
  | random16
  | bind
  | connect (resolver : SocketAddr IpAddr)
  | send (query : List UInt8)
  -- with a timeout of five seconds
  | recv
  | lookupHost (host : String)

def signature (IpAddr : Type) : Signature where
  Op := Op IpAddr
  Reply
    | .readResolvConf => Except IoError String
    | .random16 => UInt16
    | .bind => Except IoError Unit
    | .connect _ => Except IoError Unit
    | .send _ => Except IoError Unit
    | .recv => Option (Except IoError (List UInt8))
    | .lookupHost _ => Except IoError (List (SocketAddr IpAddr))

end Search

variable {IpAddr : Type}

/-! ## The resolvers -/

/-- `lines`: at line feeds, without a carriage return before them; nothing follows the last. -/
def linesOf (cs : List Char) : List (List Char) :=
  let pieces := cs.splitOn '\n'
  pieces.dropLast.map (fun line => if line.getLast? = some '\r' then line.dropLast else line) ++
    pieces.getLast?.toList.filter (· ≠ [])

/-- A turn of the loop of `resolver_address`. -/
def nameserver (net : Net IpAddr) (line : List Char) : Option (SocketAddr IpAddr) :=
  match (trim line).dropPrefix? "nameserver".toList with
  | some rest => (net.parse (trim rest)).map fun ip => ⟨ip, 53⟩
  | none => none

/-- `resolver_address`, with what `read_to_string` returns. -/
def resolverAddress (net : Net IpAddr) (contents : Except IoError String) :
    List (SocketAddr IpAddr) :=
  (match contents with
    | .ok contents => (linesOf contents.toList).filterMap (nameserver net)
    | .error _ => []) ++ [⟨net.v4 1 1 1 1, 53⟩]

/-! ## A query -/

/-- The name `query_srv` asks for. -/
def encodeQuestion (service proto name : String) : Except IoError (List UInt8) := do
  let qname ← encodeName [] service
  let qname ← encodeName qname proto
  let qname ← encodeName qname name
  return qname ++ [0]

def queryBytes (identifier : UInt16) (qname : List UInt8) : List UInt8 :=
  u16Bytes identifier ++ [0x01, 0x00] ++ [0, 1] ++ [0, 0] ++ [0, 0] ++ [0, 0] ++ qname ++
    [0, 33] ++ [0, 1]

theorem srvQuery_eq_map (identifier : UInt16) (service proto name : String) :
    srvQuery identifier service proto name =
      (encodeQuestion service proto name).map (queryBytes identifier) := by
  unfold srvQuery encodeQuestion
  cases encodeName [] service with
  | error e => rfl
  | ok qname =>
      show Except.bind (encodeName qname proto) _ =
        Except.map _ (Except.bind (encodeName qname proto) _)
      cases encodeName qname proto with
      | error e => rfl
      | ok qname =>
          show Except.bind (encodeName qname name) _ =
            Except.map _ (Except.bind (encodeName qname name) _)
          cases encodeName qname name with
          | error e => rfl
          | ok qname => rfl

/-- What `parse_srv_response` returns for a message and an identifier, if it comes back. -/
abbrev Parse : Type := List UInt8 → UInt16 → Option SrvRecords

section Code

variable (parse : Parse)

/-- What there is to parse: nothing if nothing was received, and no more than the buffer holds. -/
def parseDatagram (datagram : List UInt8) (identifier : UInt16) : Option SrvRecords :=
  let bytes := datagram.take 4096
  if bytes.isEmpty then some (.ok []) else parse bytes identifier

/-- `query_srv` behind the encoding of the name; `none` if it does not come back. -/
def askResolver (resolver : SocketAddr IpAddr) (qname : List UInt8) :
    Program (Search.signature IpAddr) (Option SrvRecords) :=
  .request .random16 fun identifier =>
    .request .bind fun
      | .error e => .done (some (.error e))
      | .ok () =>
          .request (.connect resolver) fun
            | .error e => .done (some (.error e))
            | .ok () =>
                .request (.send (queryBytes identifier qname)) fun
                  | .error e => .done (some (.error e))
                  | .ok () =>
                      .request .recv fun
                        | none => .done (some (.error ⟨"dns timeout"⟩))
                        | some (.error e) => .done (some (.error e))
                        | some (.ok datagram) => .done (parseDatagram parse datagram identifier)

def querySrv (resolver : SocketAddr IpAddr) (service proto name : String) :
    Program (Search.signature IpAddr) (Option SrvRecords) :=
  match encodeQuestion service proto name with
  | .error e => .done (some (.error e))
  | .ok qname => askResolver parse resolver qname

/-- The loop of `srv_lookup`. -/
def askResolvers (service proto name : String) :
    List (SocketAddr IpAddr) → Program (Search.signature IpAddr) (Option SrvRecords)
  | [] => .done (some (.ok []))
  | resolver :: resolvers =>
      (querySrv parse resolver service proto name).bind fun
        | none => .done none
        | some (.ok (record :: records)) => .done (some (.ok (record :: records)))
        | some _ => askResolvers service proto name resolvers

/-- The loop of `discover_edges` over hosts, each with its port. -/
def lookupHosts [DecidableEq IpAddr] (edges : List (SocketAddr IpAddr)) :
    List (String × UInt16) → Program (Search.signature IpAddr) (List (SocketAddr IpAddr))
  | [] => .done edges
  | (host, port) :: hosts =>
      .request (.lookupHost host) fun addrs =>
        lookupHosts (((resolveHost addrs).map (⟨·, port⟩)).foldl pushNew edges) hosts

/-- The hosts `discover_edges` turns to. -/
def hostsOf (srv : SrvRecords) : List (String × UInt16) :=
  match srv with
  | .ok (record :: records) => record :: records
  | _ => fallbackEdges.map (·, fallbackEdgePort)

/-- `discover_edges`. -/
def searchEdges [DecidableEq IpAddr] (net : Net IpAddr) (region : Option String) :
    Program (Search.signature IpAddr) (Option (Except Error (List (SocketAddr IpAddr)))) :=
  .request .readResolvConf fun contents =>
    (askResolvers parse (serviceOf region) srvProto srvName (resolverAddress net contents)).bind fun
      | none => .done none
      | some srv =>
          (lookupHosts [] (hostsOf srv)).bind fun edges =>
            .done (some
              (if edges.isEmpty then .error (.other "no edge addresses could be resolved")
              else .ok edges))

end Code

/-! ## How a resolver is asked -/

/-- How far a query has come. -/
inductive Heard where
  | notBound (e : IoError)
  | notConnected (e : IoError)
  | notSent (e : IoError)
  | timedOut
  | notReceived (e : IoError)
  | received (datagram : List UInt8)

/-- A resolver that was asked. -/
structure Asked (IpAddr : Type) where
  resolver : SocketAddr IpAddr
  identifier : UInt16
  heard : Heard

namespace Asked

variable (parse : Parse) (qname : List UInt8) (asked : Asked IpAddr)

def events : List (Program.Event (Search.signature IpAddr)) :=
  ⟨.random16, asked.identifier⟩ ::
    match asked.heard with
    | .notBound e => [⟨.bind, .error e⟩]
    | .notConnected e => [⟨.bind, .ok ()⟩, ⟨.connect asked.resolver, .error e⟩]
    | .notSent e =>
        [⟨.bind, .ok ()⟩, ⟨.connect asked.resolver, .ok ()⟩,
          ⟨.send (queryBytes asked.identifier qname), .error e⟩]
    | .timedOut =>
        [⟨.bind, .ok ()⟩, ⟨.connect asked.resolver, .ok ()⟩,
          ⟨.send (queryBytes asked.identifier qname), .ok ()⟩, ⟨.recv, none⟩]
    | .notReceived e =>
        [⟨.bind, .ok ()⟩, ⟨.connect asked.resolver, .ok ()⟩,
          ⟨.send (queryBytes asked.identifier qname), .ok ()⟩, ⟨.recv, some (.error e)⟩]
    | .received datagram =>
        [⟨.bind, .ok ()⟩, ⟨.connect asked.resolver, .ok ()⟩,
          ⟨.send (queryBytes asked.identifier qname), .ok ()⟩, ⟨.recv, some (.ok datagram)⟩]

/-- What `query_srv` makes of it. -/
def answer : Option SrvRecords :=
  match asked.heard with
  | .notBound e | .notConnected e | .notSent e | .notReceived e => some (.error e)
  | .timedOut => some (.error ⟨"dns timeout"⟩)
  | .received datagram => parseDatagram parse datagram asked.identifier

end Asked

section Resolvers

open Program

variable {parse : Parse} {qname : List UInt8}

theorem exec_askResolver_iff {resolver : SocketAddr IpAddr}
    {trace : List (Program.Event (Search.signature IpAddr))} {result : Option SrvRecords} :
    Exec (askResolver parse resolver qname) trace result ↔
      ∃ asked : Asked IpAddr, asked.resolver = resolver ∧ trace = asked.events qname ∧
        result = asked.answer parse := by
  unfold askResolver
  constructor
  · intro h
    obtain ⟨identifier, _, rfl, hbind⟩ := exec_request_iff.mp h
    obtain ⟨bound, _, rfl, hconnect⟩ := exec_request_iff.mp hbind
    cases bound with
    | error e =>
        obtain ⟨rfl, rfl⟩ := exec_done_iff.mp hconnect
        exact ⟨⟨resolver, identifier, .notBound e⟩, rfl, rfl, rfl⟩
    | ok =>
    obtain ⟨connected, _, rfl, hsend⟩ := exec_request_iff.mp hconnect
    cases connected with
    | error e =>
        obtain ⟨rfl, rfl⟩ := exec_done_iff.mp hsend
        exact ⟨⟨resolver, identifier, .notConnected e⟩, rfl, rfl, rfl⟩
    | ok =>
    obtain ⟨sent, _, rfl, hrecv⟩ := exec_request_iff.mp hsend
    cases sent with
    | error e =>
        obtain ⟨rfl, rfl⟩ := exec_done_iff.mp hrecv
        exact ⟨⟨resolver, identifier, .notSent e⟩, rfl, rfl, rfl⟩
    | ok =>
    obtain ⟨received, _, rfl, hdone⟩ := exec_request_iff.mp hrecv
    cases received with
    | none =>
        obtain ⟨rfl, rfl⟩ := exec_done_iff.mp hdone
        exact ⟨⟨resolver, identifier, .timedOut⟩, rfl, rfl, rfl⟩
    | some received =>
    cases received with
    | error e =>
        obtain ⟨rfl, rfl⟩ := exec_done_iff.mp hdone
        exact ⟨⟨resolver, identifier, .notReceived e⟩, rfl, rfl, rfl⟩
    | ok datagram =>
        obtain ⟨rfl, rfl⟩ := exec_done_iff.mp hdone
        exact ⟨⟨resolver, identifier, .received datagram⟩, rfl, rfl, rfl⟩
  · rintro ⟨⟨_, identifier, heard⟩, rfl, rfl, rfl⟩
    refine exec_request_iff.mpr ⟨identifier, _, rfl, ?_⟩
    cases heard with
    | notBound e => exact .request _ (.done _)
    | notConnected e => exact .request _ (.request _ (.done _))
    | notSent e => exact .request _ (.request _ (.request _ (.done _)))
    | timedOut => exact .request _ (.request _ (.request _ (.request _ (.done _))))
    | notReceived e => exact .request _ (.request _ (.request _ (.request _ (.done _))))
    | received datagram => exact .request _ (.request _ (.request _ (.request _ (.done _))))

/-! ### One after another -/

variable {service proto name : String}

/-- How the search goes on behind the first resolver. -/
theorem exec_askResolvers_cons_iff (hq : encodeQuestion service proto name = .ok qname)
    {resolver : SocketAddr IpAddr} {resolvers : List (SocketAddr IpAddr)}
    {trace : List (Program.Event (Search.signature IpAddr))} {result : Option SrvRecords} :
    Exec (askResolvers parse service proto name (resolver :: resolvers)) trace result ↔
      ∃ (asked : Asked IpAddr) (rest : List (Program.Event (Search.signature IpAddr))),
        asked.resolver = resolver ∧ trace = asked.events qname ++ rest ∧
        match asked.answer parse with
        | none => rest = [] ∧ result = none
        | some answer =>
            if targetsOf answer = [] then
              Exec (askResolvers parse service proto name resolvers) rest result
            else rest = [] ∧ result = some answer := by
  have hquery : querySrv parse resolver service proto name = askResolver parse resolver qname := by
    unfold querySrv
    rw [hq]
  rw [askResolvers, hquery, exec_bind_iff]
  constructor
  · rintro ⟨_, _, rest, rfl, hask, h⟩
    obtain ⟨asked, hresolver, rfl, rfl⟩ := exec_askResolver_iff.mp hask
    refine ⟨asked, rest, hresolver, rfl, ?_⟩
    cases hanswer : asked.answer parse with
    | none =>
        rw [hanswer] at h
        exact exec_done_iff.mp h
    | some answer =>
        rw [hanswer] at h
        match answer with
        | .ok (record :: records) => exact exec_done_iff.mp h
        | .ok [] => exact h
        | .error e => exact h
  · rintro ⟨asked, rest, hresolver, rfl, h⟩
    refine ⟨_, asked.answer parse, rest, rfl,
      exec_askResolver_iff.mpr ⟨asked, hresolver, rfl, rfl⟩, ?_⟩
    cases hanswer : asked.answer parse with
    | none =>
        rw [hanswer] at h
        exact exec_done_iff.mpr h
    | some answer =>
        rw [hanswer] at h
        match answer with
        | .ok (record :: records) => exact exec_done_iff.mpr h
        | .ok [] => exact h
        | .error e => exact h

theorem srvLookup_cons (answer : SrvRecords) (answers : List SrvRecords) :
    srvLookup (answer :: answers) =
      if targetsOf answer = [] then srvLookup answers else answer := by
  match answer with
  | .ok (record :: records) => rfl
  | .ok [] => rfl
  | .error e => rfl

/-- The resolvers that were asked have answered, and only the last of them with records. -/
structure Answered (parse : Parse) (resolvers : List (SocketAddr IpAddr))
    (asked : List (Asked IpAddr)) (answers : List SrvRecords) : Prop where
  given : asked.map (Asked.answer parse) = answers.map some
  order : asked.map Asked.resolver <+: resolvers
  quiet : ∀ answer ∈ answers.dropLast, targetsOf answer = []
  all : targetsOf (srvLookup answers) = [] → asked.map Asked.resolver = resolvers

theorem answered_nil : Answered parse ([] : List (SocketAddr IpAddr)) [] [] where
  given := rfl
  order := List.prefix_rfl
  quiet _ h := absurd h List.not_mem_nil
  all _ := rfl

theorem answered_cons {asked : Asked IpAddr} {rest : List (Asked IpAddr)} {answer : SrvRecords}
    {answers : List SrvRecords} {resolvers : List (SocketAddr IpAddr)}
    (hanswer : asked.answer parse = some answer) :
    Answered parse (asked.resolver :: resolvers) (asked :: rest) (answer :: answers) ↔
      if targetsOf answer = [] then Answered parse resolvers rest answers
      else rest = [] ∧ answers = [] := by
  split
  · next hempty =>
    have hlookup : srvLookup (answer :: answers) = srvLookup answers := by
      rw [srvLookup_cons, if_pos hempty]
    constructor
    · intro h
      obtain ⟨_, htail⟩ := List.cons.inj h.given
      have horder := (List.cons_prefix_cons.mp h.order).2
      refine ⟨htail, horder, fun other hother => ?_, fun hnone => ?_⟩
      · cases answers with
        | nil => cases hother
        | cons second answers => exact h.quiet other (List.mem_cons_of_mem _ hother)
      · exact (List.cons.inj (h.all (by rw [hlookup]; exact hnone))).2
    · intro h
      refine ⟨?_, ?_, fun other hother => ?_, fun hnone => ?_⟩
      · rw [List.map_cons, List.map_cons, hanswer, h.given]
      · exact List.cons_prefix_cons.mpr ⟨rfl, h.order⟩
      · cases answers with
        | nil => cases hother
        | cons second answers =>
            rcases List.mem_cons.mp hother with rfl | hmem
            · exact hempty
            · exact h.quiet other hmem
      · rw [hlookup] at hnone
        rw [List.map_cons, h.all hnone]
  · next hfound =>
    constructor
    · intro h
      -- an answer with records is the last
      have hlast : answers = [] := by
        cases answers with
        | nil => rfl
        | cons second answers => exact absurd (h.quiet answer List.mem_cons_self) hfound
      subst hlast
      obtain ⟨_, htail⟩ := List.cons.inj h.given
      exact ⟨List.map_eq_nil_iff.mp htail, rfl⟩
    · rintro ⟨rfl, rfl⟩
      refine ⟨?_, ?_, fun _ hother => absurd hother List.not_mem_nil, fun hnone => ?_⟩
      · rw [List.map_cons, hanswer]
        rfl
      · exact List.cons_prefix_cons.mpr ⟨rfl, List.nil_prefix⟩
      · rw [srvLookup_cons, if_neg hfound] at hnone
        exact absurd hnone hfound

/-- A search that comes to an end. -/
theorem exec_askResolvers_some_iff (hq : encodeQuestion service proto name = .ok qname)
    {resolvers : List (SocketAddr IpAddr)} {trace : List (Program.Event (Search.signature IpAddr))}
    {srv : SrvRecords} :
    Exec (askResolvers parse service proto name resolvers) trace (some srv) ↔
      ∃ asked answers, Answered parse resolvers asked answers ∧
        trace = asked.flatMap (Asked.events qname) ∧ srv = srvLookup answers := by
  induction resolvers generalizing trace srv with
  | nil =>
      rw [askResolvers, exec_done_iff]
      constructor
      · rintro ⟨rfl, hsrv⟩
        exact ⟨[], [], answered_nil, rfl, Option.some.inj hsrv⟩
      · rintro ⟨asked, answers, h, rfl, rfl⟩
        obtain rfl : asked = [] := List.map_eq_nil_iff.mp (List.prefix_nil.mp h.order)
        obtain rfl : answers = [] := List.map_eq_nil_iff.mp h.given.symm
        exact ⟨rfl, rfl⟩
  | cons resolver resolvers ih =>
      rw [exec_askResolvers_cons_iff hq]
      constructor
      · rintro ⟨first, rest, rfl, rfl, h⟩
        cases hanswer : first.answer parse with
        | none =>
            rw [hanswer] at h
            cases h.2
        | some answer =>
            rw [hanswer] at h
            dsimp only at h
            by_cases hempty : targetsOf answer = []
            · rw [if_pos hempty] at h
              obtain ⟨asked, answers, hanswered, rfl, rfl⟩ := ih.mp h
              refine ⟨first :: asked, answer :: answers, ?_, rfl, ?_⟩
              · rw [answered_cons hanswer, if_pos hempty]
                exact hanswered
              · rw [srvLookup_cons, if_pos hempty]
            · rw [if_neg hempty] at h
              obtain ⟨rfl, hsrv⟩ := h
              obtain rfl := Option.some.inj hsrv
              refine ⟨[first], [srv], ?_, rfl, ?_⟩
              · rw [answered_cons hanswer, if_neg hempty]
                exact ⟨rfl, rfl⟩
              · rw [srvLookup_cons, if_neg hempty]
      · rintro ⟨asked, answers, h, rfl, rfl⟩
        cases asked with
        | nil =>
            obtain rfl : answers = [] := List.map_eq_nil_iff.mp h.given.symm
            cases h.all rfl
        | cons first asked =>
            cases answers with
            | nil => cases h.given
            | cons answer answers =>
                obtain ⟨hanswer, _⟩ := List.cons.inj h.given
                obtain ⟨rfl, _⟩ := List.cons_prefix_cons.mp h.order
                rw [answered_cons hanswer] at h
                refine ⟨first, asked.flatMap (Asked.events qname), rfl, rfl, ?_⟩
                rw [hanswer, srvLookup_cons]
                dsimp only
                by_cases hempty : targetsOf answer = []
                · rw [if_pos hempty] at h
                  rw [if_pos hempty, if_pos hempty]
                  exact ih.mpr ⟨asked, answers, h, rfl, rfl⟩
                · rw [if_neg hempty] at h
                  rw [if_neg hempty, if_neg hempty]
                  obtain ⟨rfl, rfl⟩ := h
                  exact ⟨rfl, rfl⟩

/-- A search that does not: all before the last have answered without records, and the answer of the
last is still being parsed. -/
theorem exec_askResolvers_none_iff (hq : encodeQuestion service proto name = .ok qname)
    {resolvers : List (SocketAddr IpAddr)}
    {trace : List (Program.Event (Search.signature IpAddr))} :
    Exec (askResolvers parse service proto name resolvers) trace none ↔
      ∃ (asked : List (Asked IpAddr)) (last : Asked IpAddr),
        (asked ++ [last]).map Asked.resolver <+: resolvers ∧
        (∀ a ∈ asked, ∃ answer, a.answer parse = some answer ∧ targetsOf answer = []) ∧
        last.answer parse = none ∧ trace = (asked ++ [last]).flatMap (Asked.events qname) := by
  induction resolvers generalizing trace with
  | nil =>
      rw [askResolvers, exec_done_iff]
      refine iff_of_false (fun h => by cases h.2) ?_
      rintro ⟨asked, last, horder, _⟩
      have hnil := List.map_eq_nil_iff.mp (List.prefix_nil.mp horder)
      exact List.append_ne_nil_of_right_ne_nil asked (List.cons_ne_nil last []) hnil
  | cons resolver resolvers ih =>
      rw [exec_askResolvers_cons_iff hq]
      constructor
      · rintro ⟨first, rest, rfl, rfl, h⟩
        cases hanswer : first.answer parse with
        | none =>
            rw [hanswer] at h
            obtain ⟨rfl, _⟩ := h
            refine ⟨[], first, ?_, fun _ hmem => absurd hmem List.not_mem_nil, hanswer, ?_⟩
            · exact List.cons_prefix_cons.mpr ⟨rfl, List.nil_prefix⟩
            · rfl
        | some answer =>
            rw [hanswer] at h
            dsimp only at h
            by_cases hempty : targetsOf answer = []
            · rw [if_pos hempty] at h
              obtain ⟨asked, last, horder, hquiet, hlast, rfl⟩ := ih.mp h
              refine ⟨first :: asked, last, ?_, ?_, hlast, rfl⟩
              · exact List.cons_prefix_cons.mpr ⟨rfl, horder⟩
              · intro a hmem
                rcases List.mem_cons.mp hmem with rfl | hmem
                · exact ⟨answer, hanswer, hempty⟩
                · exact hquiet a hmem
            · rw [if_neg hempty] at h
              cases h.2
      · rintro ⟨asked, last, horder, hquiet, hlast, rfl⟩
        cases asked with
        | nil =>
            obtain ⟨rfl, _⟩ := List.cons_prefix_cons.mp horder
            refine ⟨last, [], rfl, rfl, ?_⟩
            rw [hlast]
            exact ⟨rfl, rfl⟩
        | cons first asked =>
            obtain ⟨rfl, hrest⟩ := List.cons_prefix_cons.mp horder
            obtain ⟨answer, hanswer, hempty⟩ := hquiet first List.mem_cons_self
            refine ⟨first, (asked ++ [last]).flatMap (Asked.events qname), rfl, rfl, ?_⟩
            rw [hanswer]
            dsimp only
            rw [if_pos hempty]
            exact ih.mpr ⟨asked, last, hrest,
              fun a hmem => hquiet a (List.mem_cons_of_mem _ hmem), hlast, rfl⟩

/-- A name that cannot be encoded is asked for nowhere. -/
theorem askResolvers_of_error {e : IoError} (hq : encodeQuestion service proto name = .error e)
    (resolvers : List (SocketAddr IpAddr)) :
    askResolvers parse service proto name resolvers = .done (some (.ok [])) := by
  induction resolvers with
  | nil => rfl
  | cons resolver resolvers ih =>
      have hquery : querySrv parse resolver service proto name = .done (some (.error e)) := by
        unfold querySrv
        rw [hq]
      rw [askResolvers, hquery]
      exact ih

end Resolvers

/-! ## How the hosts are looked up -/

section Hosts

open Program

def lookupEvents (lookupHost : LookupHost IpAddr) :
    Nat → List (String × UInt16) → List (Program.Event (Search.signature IpAddr))
  | _, [] => []
  | call, (host, _) :: hosts =>
      ⟨.lookupHost host, lookupHost call host⟩ :: lookupEvents lookupHost (call + 1) hosts

variable {lookupHost lookupHost' : LookupHost IpAddr} {call : Nat}

/-- The calls before do not matter. -/
theorem lookupEvents_congr (h : ∀ n, call ≤ n → lookupHost n = lookupHost' n)
    (hosts : List (String × UInt16)) :
    lookupEvents lookupHost call hosts = lookupEvents lookupHost' call hosts := by
  induction hosts generalizing call with
  | nil => rfl
  | cons host hosts ih =>
      have hrest := ih fun n hn => h n (Nat.le_of_succ_le hn)
      rw [lookupEvents, lookupEvents, h call (Nat.le_refl call), hrest]

variable [DecidableEq IpAddr]

theorem pushHosts_congr (h : ∀ n, call ≤ n → lookupHost n = lookupHost' n)
    (edges : List (SocketAddr IpAddr)) (hosts : List (String × UInt16)) :
    pushHosts lookupHost call edges hosts = pushHosts lookupHost' call edges hosts := by
  induction hosts generalizing call edges with
  | nil => rfl
  | cons host hosts ih =>
      obtain ⟨host, port⟩ := host
      simp only [pushHosts]
      rw [h call (Nat.le_refl call)]
      exact ih (fun n hn => h n (Nat.le_of_succ_le hn)) _

theorem exec_lookupHosts_iff (call : Nat) {edges edges' : List (SocketAddr IpAddr)}
    {hosts : List (String × UInt16)} {trace : List (Program.Event (Search.signature IpAddr))} :
    Exec (lookupHosts edges hosts) trace edges' ↔
      ∃ lookupHost : LookupHost IpAddr, trace = lookupEvents lookupHost call hosts ∧
        edges' = pushHosts lookupHost call edges hosts := by
  induction hosts generalizing call edges trace with
  | nil =>
      rw [lookupHosts, exec_done_iff]
      constructor
      · rintro ⟨rfl, rfl⟩
        exact ⟨fun _ _ => .ok [], rfl, rfl⟩
      · rintro ⟨_, rfl, rfl⟩
        exact ⟨rfl, rfl⟩
  | cons host hosts ih =>
      obtain ⟨host, port⟩ := host
      refine exec_request_iff.trans ?_
      constructor
      · rintro ⟨addrs, rest, rfl, h⟩
        obtain ⟨later, rfl, rfl⟩ := (ih (call + 1)).mp h
        -- this call, and the later ones as they are
        let lookupHost : LookupHost IpAddr := fun n host =>
          if n = call then addrs else later n host
        have hlater : ∀ n, call + 1 ≤ n → lookupHost n = later n := by
          intro n hn
          funext host
          exact if_neg (by omega)
        have hnow : lookupHost call host = addrs := if_pos rfl
        refine ⟨lookupHost, ?_, ?_⟩
        · rw [lookupEvents, lookupEvents_congr hlater, hnow]
        · simp only [pushHosts]
          rw [hnow, pushHosts_congr hlater]
      · rintro ⟨lookupHost, rfl, rfl⟩
        exact ⟨lookupHost call host, _, rfl, (ih (call + 1)).mpr ⟨lookupHost, rfl, rfl⟩⟩

theorem discoverEdges_hostsOf (srv : SrvRecords) (lookupHost : LookupHost IpAddr) :
    discoverEdges srv lookupHost =
      if (pushHosts lookupHost 0 [] (hostsOf srv)).isEmpty then
        .error (.other "no edge addresses could be resolved")
      else .ok (pushHosts lookupHost 0 [] (hostsOf srv)) := by
  match srv with
  | .ok (record :: records) => rfl
  | .ok [] => rfl
  | .error e => rfl

end Hosts

/-! ## The search as a whole -/

/-- What the resolvers are asked for, if it can be encoded. -/
def questionOf (region : Option String) : Except IoError (List UInt8) :=
  encodeQuestion (serviceOf region) srvProto srvName

/-- The resolvers that are asked. -/
def resolversFor (net : Net IpAddr) (region : Option String) (contents : Except IoError String) :
    List (SocketAddr IpAddr) :=
  match questionOf region with
  | .ok _ => resolverAddress net contents
  | .error _ => []

/-- The events of the queries. -/
def askedEvents (region : Option String) (asked : List (Asked IpAddr)) :
    List (Program.Event (Search.signature IpAddr)) :=
  match questionOf region with
  | .ok qname => asked.flatMap (Asked.events qname)
  | .error _ => []

section Whole

open Program

variable {parse : Parse} {net : Net IpAddr} {region : Option String}
  {trace : List (Program.Event (Search.signature IpAddr))} {contents : Except IoError String}

theorem exec_search_some_iff {srv : SrvRecords} :
    Exec (askResolvers parse (serviceOf region) srvProto srvName (resolverAddress net contents))
        trace (some srv) ↔
      ∃ asked answers, Answered parse (resolversFor net region contents) asked answers ∧
        trace = askedEvents region asked ∧ srv = srvLookup answers := by
  unfold resolversFor askedEvents
  cases hq : questionOf region with
  | ok qname => exact exec_askResolvers_some_iff hq
  | error e =>
      rw [askResolvers_of_error hq, exec_done_iff]
      constructor
      · rintro ⟨rfl, hsrv⟩
        exact ⟨[], [], answered_nil, rfl, Option.some.inj hsrv⟩
      · rintro ⟨asked, answers, h, rfl, rfl⟩
        obtain rfl : asked = [] := List.map_eq_nil_iff.mp (List.prefix_nil.mp h.order)
        obtain rfl : answers = [] := List.map_eq_nil_iff.mp h.given.symm
        exact ⟨rfl, rfl⟩

/-- The last of the resolvers that were asked has sent something the parse of which does not come
back. -/
structure Stuck (parse : Parse) (resolvers : List (SocketAddr IpAddr)) (asked : List (Asked IpAddr))
    (last : Asked IpAddr) : Prop where
  order : (asked ++ [last]).map Asked.resolver <+: resolvers
  quiet : ∀ a ∈ asked, ∃ answer, a.answer parse = some answer ∧ targetsOf answer = []
  stuck : last.answer parse = none

theorem exec_search_none_iff :
    Exec (askResolvers parse (serviceOf region) srvProto srvName (resolverAddress net contents))
        trace none ↔
      ∃ asked last, Stuck parse (resolversFor net region contents) asked last ∧
        trace = askedEvents region (asked ++ [last]) := by
  unfold resolversFor askedEvents
  cases hq : questionOf region with
  | ok qname =>
      rw [exec_askResolvers_none_iff hq]
      constructor
      · rintro ⟨asked, last, horder, hquiet, hstuck, rfl⟩
        exact ⟨asked, last, ⟨horder, hquiet, hstuck⟩, rfl⟩
      · rintro ⟨asked, last, h, rfl⟩
        exact ⟨asked, last, h.order, h.quiet, h.stuck, rfl⟩
  | error e =>
      rw [askResolvers_of_error hq, exec_done_iff]
      refine iff_of_false (fun h => by cases h.2) ?_
      rintro ⟨asked, last, h, _⟩
      have hnil := List.map_eq_nil_iff.mp (List.prefix_nil.mp h.order)
      exact List.append_ne_nil_of_right_ne_nil asked (List.cons_ne_nil last []) hnil

variable [DecidableEq IpAddr]

theorem exec_searchEdges_some_iff
    {result : Except Error (List (SocketAddr IpAddr))} :
    Exec (searchEdges parse net region) trace (some result) ↔
      ∃ contents asked answers lookupHost,
        Answered parse (resolversFor net region contents) asked answers ∧
        trace = ⟨.readResolvConf, contents⟩ ::
          (askedEvents region asked ++ lookupEvents lookupHost 0 (hostsOf (srvLookup answers))) ∧
        result = discoverEdges (srvLookup answers) lookupHost := by
  refine exec_request_iff.trans ?_
  constructor
  · rintro ⟨contents, _, rfl, h⟩
    obtain ⟨first, srv, second, rfl, hask, hrest⟩ := exec_bind_iff.mp h
    cases srv with
    | none => cases (exec_done_iff.mp hrest).2
    | some srv =>
        obtain ⟨asked, answers, hanswered, rfl, rfl⟩ := exec_search_some_iff.mp hask
        obtain ⟨looked, edges, last, rfl, hlook, hdone⟩ := exec_bind_iff.mp hrest
        obtain ⟨rfl, hresult⟩ := exec_done_iff.mp hdone
        obtain ⟨lookupHost, rfl, rfl⟩ := (exec_lookupHosts_iff 0).mp hlook
        refine ⟨contents, asked, answers, lookupHost, hanswered, ?_, ?_⟩
        · rw [List.append_nil]
        · rw [discoverEdges_hostsOf]
          exact Option.some.inj hresult
  · rintro ⟨contents, asked, answers, lookupHost, hanswered, rfl, rfl⟩
    refine ⟨contents, _, rfl, exec_bind_iff.mpr ⟨_, some (srvLookup answers), _, rfl,
      exec_search_some_iff.mpr ⟨asked, answers, hanswered, rfl, rfl⟩, ?_⟩⟩
    refine exec_bind_iff.mpr ⟨_, _, [], (List.append_nil _).symm,
      (exec_lookupHosts_iff 0).mpr ⟨lookupHost, rfl, rfl⟩, ?_⟩
    rw [discoverEdges_hostsOf]
    exact .done _

theorem exec_searchEdges_none_iff :
    Exec (searchEdges parse net region) trace none ↔
      ∃ contents asked last, Stuck parse (resolversFor net region contents) asked last ∧
        trace = ⟨.readResolvConf, contents⟩ :: askedEvents region (asked ++ [last]) := by
  refine exec_request_iff.trans ?_
  constructor
  · rintro ⟨contents, _, rfl, h⟩
    obtain ⟨first, srv, second, rfl, hask, hrest⟩ := exec_bind_iff.mp h
    cases srv with
    | none =>
        obtain ⟨rfl, _⟩ := exec_done_iff.mp hrest
        obtain ⟨asked, last, hstuck, rfl⟩ := exec_search_none_iff.mp hask
        exact ⟨contents, asked, last, hstuck, by rw [List.append_nil]⟩
    | some srv =>
        obtain ⟨_, _, _, _, _, hdone⟩ := exec_bind_iff.mp hrest
        cases (exec_done_iff.mp hdone).2
  · rintro ⟨contents, asked, last, hstuck, rfl⟩
    exact ⟨contents, _, rfl, exec_bind_iff.mpr ⟨_, none, [], (List.append_nil _).symm,
      exec_search_none_iff.mpr ⟨asked, last, hstuck, rfl⟩, .done _⟩⟩

end Whole

/-! ## With the parse as it is -/

section Returns

variable {bytes : List UInt8} {identifier : UInt16}

open Classical in
/-- What `parse_srv_response` returns, if it comes back. -/
noncomputable def parseReturns : Parse := fun bytes identifier =>
  if h : ∃ result fuel, parseSrvResponse fuel bytes identifier = some result then some h.choose
  else none

theorem parseReturns_eq_some_iff {result : SrvRecords} :
    parseReturns bytes identifier = some result ↔
      ∃ fuel, parseSrvResponse fuel bytes identifier = some result := by
  unfold parseReturns
  constructor
  · intro h
    split at h
    · next hreturns =>
      obtain rfl := Option.some.inj h
      exact hreturns.choose_spec
    · cases h
  · rintro ⟨fuel, h⟩
    have hreturns : ∃ result fuel, parseSrvResponse fuel bytes identifier = some result :=
      ⟨result, fuel, h⟩
    rw [dif_pos hreturns]
    obtain ⟨fuel', h'⟩ := hreturns.choose_spec
    -- more fuel does not change the result
    have hmore := parseSrvResponse_mono h (Nat.le_max_left fuel fuel')
    have hmore' := parseSrvResponse_mono h' (Nat.le_max_right fuel fuel')
    exact hmore'.symm.trans hmore

theorem parseReturns_eq_none_iff :
    parseReturns bytes identifier = none ↔
      ∃ p, IsDecoded bytes (allTargets bytes identifier) p ∧
        Loop.ComesRound (nextPosition bytes) p := by
  rw [← not_iff_not, ← ne_eq, Option.ne_none_iff_exists']
  push Not
  rw [← parseSrvResponse_returns_iff]
  constructor
  · rintro ⟨result, h⟩
    obtain ⟨fuel, h⟩ := parseReturns_eq_some_iff.mp h
    exact ⟨fuel, result, h⟩
  · rintro ⟨fuel, result, h⟩
    exact ⟨result, parseReturns_eq_some_iff.mpr ⟨fuel, h⟩⟩

variable {asked : Asked IpAddr}

theorem answer_parseReturns_iff {answer : SrvRecords} :
    asked.answer parseReturns = some answer ↔
      ∃ fuel, asked.answer (parseSrvResponse fuel) = some answer := by
  unfold Asked.answer parseDatagram
  cases asked.heard with
  | received datagram =>
      dsimp only
      split
      · exact (exists_const Nat).symm
      · exact parseReturns_eq_some_iff
  | _ => exact (exists_const Nat).symm

theorem answer_mono {answer : SrvRecords} {fuel more : Nat}
    (h : asked.answer (parseSrvResponse fuel) = some answer) (hle : fuel ≤ more) :
    asked.answer (parseSrvResponse more) = some answer := by
  unfold Asked.answer parseDatagram at h ⊢
  cases hheard : asked.heard with
  | received datagram =>
      rw [hheard] at h
      dsimp only at h ⊢
      by_cases hempty : (datagram.take 4096).isEmpty = true
      · rw [if_pos hempty] at h ⊢
        exact h
      · rw [if_neg hempty] at h ⊢
        exact parseSrvResponse_mono h hle
  | _ =>
      rw [hheard] at h
      exact h

/-- There is fuel for all of them. -/
theorem answers_parseReturns {asked : List (Asked IpAddr)} {answers : List SrvRecords}
    (h : asked.map (Asked.answer parseReturns) = answers.map some) :
    ∃ fuel, ∀ more, fuel ≤ more →
      asked.map (Asked.answer (parseSrvResponse more)) = answers.map some := by
  induction asked generalizing answers with
  | nil => exact ⟨0, fun _ _ => h⟩
  | cons first asked ih =>
      cases answers with
      | nil => cases h
      | cons answer answers =>
          obtain ⟨hfirst, hrest⟩ := List.cons.inj h
          obtain ⟨fuel, hfuel⟩ := answer_parseReturns_iff.mp hfirst
          obtain ⟨least, hleast⟩ := ih hrest
          refine ⟨max fuel least, fun more hmore => ?_⟩
          rw [List.map_cons, List.map_cons, hleast more (Nat.le_trans (Nat.le_max_right _ _) hmore),
            answer_mono hfuel (Nat.le_trans (Nat.le_max_left _ _) hmore)]

theorem answers_of_parseSrvResponse {asked : List (Asked IpAddr)} {answers : List SrvRecords}
    {fuel : Nat} (h : asked.map (Asked.answer (parseSrvResponse fuel)) = answers.map some) :
    asked.map (Asked.answer parseReturns) = answers.map some := by
  induction asked generalizing answers with
  | nil => exact h
  | cons first asked ih =>
      cases answers with
      | nil => cases h
      | cons answer answers =>
          obtain ⟨hfirst, hrest⟩ := List.cons.inj h
          rw [List.map_cons, List.map_cons, ih hrest, answer_parseReturns_iff.mpr ⟨fuel, hfirst⟩]

theorem answered_parseReturns_iff {resolvers : List (SocketAddr IpAddr)}
    {asked : List (Asked IpAddr)} {answers : List SrvRecords} :
    Answered parseReturns resolvers asked answers ↔
      ∃ fuel, Answered (parseSrvResponse fuel) resolvers asked answers := by
  constructor
  · intro h
    obtain ⟨fuel, hfuel⟩ := answers_parseReturns h.given
    exact ⟨fuel, hfuel fuel (Nat.le_refl fuel), h.order, h.quiet, h.all⟩
  · rintro ⟨fuel, h⟩
    exact ⟨answers_of_parseSrvResponse h.given, h.order, h.quiet, h.all⟩

/-- Records come from a datagram that carries the identifier of the query. -/
theorem identifier_of_answer {record : String × UInt16} {records : List (String × UInt16)}
    (h : asked.answer parseReturns = some (.ok (record :: records))) :
    ∃ datagram, asked.heard = .received datagram ∧
      u16At (datagram.take 4096) 0 = asked.identifier := by
  unfold Asked.answer parseDatagram at h
  cases hheard : asked.heard with
  | received datagram =>
      rw [hheard] at h
      dsimp only at h
      split at h
      · cases h
      · obtain ⟨fuel, h⟩ := parseReturns_eq_some_iff.mp h
        refine ⟨datagram, rfl, ?_⟩
        unfold parseSrvResponse readHeader at h
        split at h
        · cases h
        · next hheader =>
          split at hheader
          · cases hheader
          · split at hheader
            · cases hheader
            · next hsame => exact not_not.mp hsame
  | _ =>
      rw [hheard] at h
      cases h

end Returns

/-! ## What a search comes to -/

section Search

open Program

variable [DecidableEq IpAddr] (net : Net IpAddr) (region : Option String)
  (trace : List (Program.Event (Search.signature IpAddr)))

/-- **How a search finds what it finds.** It is done with a result if and only if the resolvers of
`resolv.conf` and then 1.1.1.1 have been asked one after another, each the same question, until one
has answered with a record, or all have been asked; the hosts of the answer, or the well-known ones,
have been looked up in order; and the result is what `discover_edges` makes of these. The answer
that is taken carries the identifier of its own query. -/
theorem searchEdges_returns_iff (result : Except Error (List (SocketAddr IpAddr))) :
    (∃ fuel, Exec (searchEdges (parseSrvResponse fuel) net region) trace (some result)) ↔
      ∃ contents asked answers lookupHost,
        Answered parseReturns (resolversFor net region contents) asked answers ∧
        (∀ a ∈ asked, ∀ record records,
          a.answer parseReturns = some (.ok (record :: records)) →
            ∃ datagram, a.heard = .received datagram ∧
              u16At (datagram.take 4096) 0 = a.identifier) ∧
        trace = ⟨.readResolvConf, contents⟩ ::
          (askedEvents region asked ++ lookupEvents lookupHost 0 (hostsOf (srvLookup answers))) ∧
        result = discoverEdges (srvLookup answers) lookupHost := by
  constructor
  · rintro ⟨fuel, h⟩
    obtain ⟨contents, asked, answers, lookupHost, hanswered, htrace, hresult⟩ :=
      exec_searchEdges_some_iff.mp h
    exact ⟨contents, asked, answers, lookupHost, answered_parseReturns_iff.mpr ⟨fuel, hanswered⟩,
      fun _ _ _ _ => identifier_of_answer, htrace, hresult⟩
  · rintro ⟨contents, asked, answers, lookupHost, hanswered, _, htrace, hresult⟩
    obtain ⟨fuel, hanswered⟩ := answered_parseReturns_iff.mp hanswered
    exact ⟨fuel, exec_searchEdges_some_iff.mpr
      ⟨contents, asked, answers, lookupHost, hanswered, htrace, hresult⟩⟩

/-- **When a search does not come back.** It does not return from the parse of an answer if and only
if every resolver asked before has answered without a record, or not at all, and a name in this
answer comes round to where it has been. Then no other resolver is asked. -/
theorem searchEdges_hangs_iff :
    Exec (searchEdges parseReturns net region) trace none ↔
      ∃ contents asked last datagram,
        (asked ++ [last]).map Asked.resolver <+: resolversFor net region contents ∧
        (∀ a ∈ asked, ∃ answer, a.answer parseReturns = some answer ∧ targetsOf answer = []) ∧
        last.heard = .received datagram ∧
        (∃ p, IsDecoded (datagram.take 4096) (allTargets (datagram.take 4096) last.identifier) p ∧
          Loop.ComesRound (nextPosition (datagram.take 4096)) p) ∧
        trace = ⟨.readResolvConf, contents⟩ :: askedEvents region (asked ++ [last]) := by
  rw [exec_searchEdges_none_iff]
  constructor
  · rintro ⟨contents, asked, last, h, htrace⟩
    have hstuck := h.stuck
    unfold Asked.answer parseDatagram at hstuck
    cases hheard : last.heard with
    | received datagram =>
        rw [hheard] at hstuck
        dsimp only at hstuck
        split at hstuck
        · cases hstuck
        · exact ⟨contents, asked, last, datagram, h.order, h.quiet, hheard,
            parseReturns_eq_none_iff.mp hstuck, htrace⟩
    | _ =>
        rw [hheard] at hstuck
        cases hstuck
  · rintro ⟨contents, asked, last, datagram, horder, hquiet, hheard, hround, htrace⟩
    refine ⟨contents, asked, last, ⟨horder, hquiet, ?_⟩, htrace⟩
    unfold Asked.answer parseDatagram
    rw [hheard]
    dsimp only
    have hne : ¬ (datagram.take 4096).isEmpty = true := by
      intro hempty
      rw [List.isEmpty_iff.mp hempty] at hround
      obtain ⟨p, hdecoded, _⟩ := hround
      exact absurd hdecoded not_isDecoded_nil
    rw [if_neg hne]
    exact parseReturns_eq_none_iff.mpr hround

end Search

end Libcfd.Edge.Discovery
