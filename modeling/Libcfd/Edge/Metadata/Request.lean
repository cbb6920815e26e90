import Libcfd.Edge.Metadata
import Libcfd.Foundation.Reorder
import Libcfd.Origin.HeaderNames

/-!
# The request the entries make

The last `HttpMethod` is the method. An `HttpHost` puts its value in the place of all values `Host`
has, every `HttpHeader:` adds one to the values of the header it names. So the order of entries that
name different headers does not matter, but for those that name `Host`: they add to it when they come
after the `HttpHost`, and are gone when they come before it.
-/

namespace Libcfd.Edge

open Libcfd.Rpc Libcfd.Origin

variable {H : Http}

/-! ## What an entry says -/

/-- The value an entry puts in the place of those of `Host`. -/
def hostOf (H : Http) (entry : String × String) : Option H.HeaderValue :=
  if entry.1 = httpHostKey then H.valueFromStr entry.2 else none

/-- The header an entry adds. -/
def headerOf (H : Http) (entry : String × String) : Option (H.HeaderName × H.HeaderValue) := do
  let name ← stripPrefix entry.1 headerKeyPrefix
  let name ← H.nameFromBytes (utf8 name)
  let value ← H.valueFromStr entry.2
  return (name, value)

/-- The value an entry adds to those of a header. -/
def valueOf (H : Http) (name : String) (entry : String × String) : Option H.HeaderValue :=
  (headerOf H entry).bind fun header => if H.nameAsStr header.1 = name then some header.2 else none

/-- A key, the header name in it in lower case. -/
def foldKey (key : String) : String :=
  match stripPrefix key headerKeyPrefix with
  | some name => headerKeyPrefix ++ asciiLowercase name
  | none => key

/-- The method an entry sets. -/
def methodOf (H : Http) (entry : String × String) : Option H.Method :=
  if entry.1 = httpMethodKey then some ((H.methodFromBytes (utf8 entry.2)).getD H.methodGet)
  else none

/-! ### The keys tell them apart -/

theorem headerOf_of_stripPrefix_none {entry : String × String}
    (h : stripPrefix entry.1 headerKeyPrefix = none) : headerOf H entry = none := by
  rw [headerOf, h]
  rfl

theorem addEntry_method (parts : H.Method × H.HeaderMap) {entry : String × String}
    (h : entry.1 = httpMethodKey) :
    addEntry H parts entry = ((H.methodFromBytes (utf8 entry.2)).getD H.methodGet, parts.2) :=
  if_pos h

theorem addEntry_host (parts : H.Method × H.HeaderMap) {entry : String × String}
    {value : H.HeaderValue} (h : hostOf H entry = some value) :
    addEntry H parts entry = (parts.1, H.insert parts.2 H.host value) := by
  obtain ⟨hkey, _⟩ := Option.ite_none_right_eq_some.mp h
  have hmethod : entry.1 ≠ httpMethodKey := by
    rw [hkey]
    decide
  rw [hostOf] at h
  rw [addEntry, if_neg hmethod, h]

theorem addEntry_header (parts : H.Method × H.HeaderMap) {entry : String × String}
    (hmethod : entry.1 ≠ httpMethodKey) (hhost : hostOf H entry = none) :
    addEntry H parts entry = (parts.1,
      (headerOf H entry).elim parts.2 fun header => H.append parts.2 header.1 header.2) := by
  rw [hostOf] at hhost
  rw [addEntry, if_neg hmethod, hhost, headerOf]
  cases stripPrefix entry.1 headerKeyPrefix with
  | none => rfl
  | some name =>
      cases hname : H.nameFromBytes (utf8 name) with
      | none => simp [hname]
      | some n =>
          cases H.valueFromStr entry.2 with
          | none => simp [hname]
          | some value => simp [hname]

/-- What an entry does: it sets the method, sets the host or adds to a header. -/
theorem addEntry_cases (parts : H.Method × H.HeaderMap) (entry : String × String) :
    (∃ method, methodOf H entry = some method ∧ hostOf H entry = none ∧ headerOf H entry = none ∧
      addEntry H parts entry = (method, parts.2)) ∨
    (∃ value, methodOf H entry = none ∧ hostOf H entry = some value ∧ headerOf H entry = none ∧
      addEntry H parts entry = (parts.1, H.insert parts.2 H.host value)) ∨
    (methodOf H entry = none ∧ hostOf H entry = none ∧ addEntry H parts entry = (parts.1,
      (headerOf H entry).elim parts.2 fun header => H.append parts.2 header.1 header.2)) := by
  by_cases hmethod : entry.1 = httpMethodKey
  · refine .inl ⟨_, if_pos hmethod, if_neg ?_, headerOf_of_stripPrefix_none ?_,
      addEntry_method parts hmethod⟩
    · rw [hmethod]
      decide
    · rw [hmethod]
      decide
  · cases hhost : hostOf H entry with
    | some value =>
        obtain ⟨hkey, _⟩ := Option.ite_none_right_eq_some.mp hhost
        refine .inr (.inl ⟨value, if_neg hmethod, rfl, headerOf_of_stripPrefix_none ?_,
          addEntry_host parts hhost⟩)
        rw [hkey]
        decide
    | none => exact .inr (.inr ⟨if_neg hmethod, rfl, addEntry_header parts hmethod hhost⟩)

/-! ## What the entries say -/

theorem fst_foldl_addEntry (metadata : List (String × String)) (parts : H.Method × H.HeaderMap) :
    (metadata.foldl (addEntry H) parts).1 = (metadata.filterMap (methodOf H)).getLastD parts.1 := by
  induction metadata generalizing parts with
  | nil => rfl
  | cons entry metadata ih =>
      rw [List.foldl_cons, ih]
      rcases addEntry_cases parts entry with ⟨method, hmethod, _, _, hadd⟩ |
        ⟨value, hmethod, _, _, hadd⟩ | ⟨hmethod, _, hadd⟩
      · rw [hadd, List.filterMap_cons_some hmethod, List.getLastD_cons]
      · rw [hadd, List.filterMap_cons_none hmethod]
      · rw [hadd, List.filterMap_cons_none hmethod]

theorem getAll_addHeader (hH : H.Lawful) (headers : H.HeaderMap) (entry : String × String)
    (name : String) :
    H.getAll ((headerOf H entry).elim headers fun header => H.append headers header.1 header.2)
      name = H.getAll headers name ++ (valueOf H name entry).toList := by
  rw [valueOf]
  cases headerOf H entry with
  | none => exact (List.append_nil _).symm
  | some header =>
      rw [Option.elim_some, hH.getAll_append, Option.bind_some]
      split
      · rfl
      · rfl

/-- Without an `HttpHost`, or under another name, values are only added. -/
theorem getAll_foldl_addEntry (hH : H.Lawful) (hN : H.PlainNames) {name : String}
    {metadata : List (String × String)}
    (h : ∀ entry ∈ metadata, name = "host" → hostOf H entry = none)
    (parts : H.Method × H.HeaderMap) :
    H.getAll (metadata.foldl (addEntry H) parts).2 name =
      H.getAll parts.2 name ++ metadata.filterMap (valueOf H name) := by
  induction metadata generalizing parts with
  | nil => exact (List.append_nil _).symm
  | cons entry metadata ih =>
      rw [List.foldl_cons, ih fun e he => h e (List.mem_cons_of_mem _ he)]
      rcases addEntry_cases parts entry with ⟨method, _, _, hheader, hadd⟩ |
        ⟨value, _, hhost, hheader, hadd⟩ | ⟨_, _, hadd⟩
      · rw [hadd, List.filterMap_cons_none (by rw [valueOf, hheader]; rfl)]
      · have hname : "host" ≠ name := by
          rintro rfl
          rw [h entry List.mem_cons_self rfl] at hhost
          cases hhost
        rw [hadd, hH.getAll_insert, hN.nameAsStr_host, if_neg hname,
          List.filterMap_cons_none (by rw [valueOf, hheader]; rfl)]
      · rw [hadd, getAll_addHeader hH, List.filterMap_cons, List.append_assoc]
        cases valueOf H name entry with
        | none => rfl
        | some value => rfl

/-- If no entry adds to `Host`, its value is that of the last `HttpHost`. -/
theorem getAll_host_foldl_addEntry (hH : H.Lawful) (hN : H.PlainNames)
    {metadata : List (String × String)} (h : ∀ entry ∈ metadata, valueOf H "host" entry = none)
    (parts : H.Method × H.HeaderMap) :
    H.getAll (metadata.foldl (addEntry H) parts).2 "host" =
      ((metadata.filterMap (hostOf H)).getLast?.map ([·])).getD (H.getAll parts.2 "host") := by
  induction metadata generalizing parts with
  | nil => rfl
  | cons entry metadata ih =>
      rw [List.foldl_cons, ih fun e he => h e (List.mem_cons_of_mem _ he)]
      rcases addEntry_cases parts entry with ⟨method, _, hhost, _, hadd⟩ |
        ⟨value, _, hhost, _, hadd⟩ | ⟨_, hhost, hadd⟩
      · rw [hadd, List.filterMap_cons_none hhost]
      · rw [hadd, List.filterMap_cons_some hhost, hH.getAll_insert, hN.nameAsStr_host, if_pos rfl,
          List.getLast?_cons]
        cases (metadata.filterMap (hostOf H)).getLast? with
        | none => rfl
        | some value => rfl
      · rw [hadd, List.filterMap_cons_none hhost, getAll_addHeader hH,
          h entry List.mem_cons_self, Option.toList_none, List.append_nil]

/-- The parts of the request. -/
def partsOf (H : Http) (metadata : List (String × String)) : H.Method × H.HeaderMap :=
  metadata.foldl (addEntry H) (H.methodGet, H.emptyMap)

theorem buildRequest_eq {connect : ConnectRequest} {uri : H.Uri}
    (h : H.uriTryFrom connect.destination = .ok uri) :
    buildRequest H connect =
      .ok ⟨(partsOf H connect.metadata).1, uri, (partsOf H connect.metadata).2, .empty⟩ := by
  unfold buildRequest
  rw [h]
  rfl

/-! ## In another order -/

/-- Nothing that can be asked of them tells the two requests apart. -/
structure SameRequest (request request' : Request H) : Prop where
  method : request.method = request'.method
  uri : request.uri = request'.uri
  body : request.body = request'.body
  values : ∀ name, H.getAll request.headers name = H.getAll request'.headers name

/-- No entry adds to `Host`. -/
def NamesNoHost (H : Http) (metadata : List (String × String)) : Prop :=
  ∀ entry ∈ metadata, valueOf H "host" entry = none

/-- Entries that add to one header under different keys add the same value. -/
def AgreesAcross (H : Http) (f : String → String) (metadata : List (String × String)) : Prop :=
  ∀ name, ∀ entry ∈ metadata, ∀ entry' ∈ metadata, ∀ value value',
    valueOf H name entry = some value → valueOf H name entry' = some value' →
    f entry.1 ≠ f entry'.1 → value = value'

section Orders

variable {f : String → String} {metadata metadata' : List (String × String)}

theorem methodOf_key {entry : String × String} {method : H.Method}
    (h : methodOf H entry = some method) : entry.1 = httpMethodKey :=
  (Option.ite_none_right_eq_some.mp h).1

theorem hostOf_key {entry : String × String} {value : H.HeaderValue}
    (h : hostOf H entry = some value) : entry.1 = httpHostKey :=
  (Option.ite_none_right_eq_some.mp h).1

theorem NamesNoHost.reorders (h : NamesNoHost H metadata)
    (horder : Reorders (fun entry => f entry.1) metadata metadata') : NamesNoHost H metadata' :=
  fun entry hentry => h entry (horder.mem_iff.mpr hentry)

theorem partsOf_reorders (hH : H.Lawful) (hN : H.PlainNames)
    (horder : Reorders (fun entry => f entry.1) metadata metadata')
    (hhost : NamesNoHost H metadata) (hagrees : AgreesAcross H f metadata) :
    (partsOf H metadata).1 = (partsOf H metadata').1 ∧
      ∀ name, H.getAll (partsOf H metadata).2 name = H.getAll (partsOf H metadata').2 name := by
  constructor
  · have hmethods : metadata.filterMap (methodOf H) = metadata'.filterMap (methodOf H) := by
      apply horder.filterMap_eq_of_key (k := f httpMethodKey)
      intro entry _ method hmethod
      exact congrArg f (methodOf_key hmethod)
    rw [partsOf, partsOf, fst_foldl_addEntry, fst_foldl_addEntry, hmethods]
  · intro name
    rw [partsOf, partsOf]
    by_cases hname : name = "host"
    · subst hname
      have hhosts : metadata.filterMap (hostOf H) = metadata'.filterMap (hostOf H) := by
        apply horder.filterMap_eq_of_key (k := f httpHostKey)
        intro entry _ value hvalue
        exact congrArg f (hostOf_key hvalue)
      rw [getAll_host_foldl_addEntry hH hN hhost,
        getAll_host_foldl_addEntry hH hN (hhost.reorders horder), hhosts]
    · have hvalues : metadata.filterMap (valueOf H name) = metadata'.filterMap (valueOf H name) :=
        horder.filterMap_eq (hagrees name)
      rw [getAll_foldl_addEntry hH hN fun _ _ h => absurd h hname,
        getAll_foldl_addEntry hH hN fun _ _ h => absurd h hname, hvalues]

/-- The entries that set the host first, then the others. -/
theorem getAll_host_first (hH : H.Lawful) (hN : H.PlainNames)
    (hf : ∀ key, f key = f httpHostKey → key = httpHostKey) {value : H.HeaderValue}
    (hvalue : (metadata.filterMap (hostOf H)).getLast? = some value) :
    ∃ metadata', Reorders (fun entry => f entry.1) metadata metadata' ∧
      H.getAll (partsOf H metadata').2 "host" =
        value :: metadata.filterMap (valueOf H "host") := by
  have horder := reorders_first (fun entry => f entry.1) metadata (f httpHostKey)
  refine ⟨_, horder, ?_⟩
  have hfirst : ∀ entry ∈ metadata.filter (fun entry => f entry.1 = f httpHostKey),
      valueOf H "host" entry = none := by
    intro entry hentry
    have hkey := hf entry.1 (of_decide_eq_true (List.mem_filter.mp hentry).2)
    rw [valueOf, headerOf_of_stripPrefix_none (by rw [hkey]; decide)]
    rfl
  have hothers : ∀ entry ∈ metadata.filter (fun entry => ¬ f entry.1 = f httpHostKey),
      "host" = "host" → hostOf H entry = none := by
    intro entry hentry _
    have hkey := of_decide_eq_true (List.mem_filter.mp hentry).2
    exact if_neg fun h => hkey (congrArg f h)
  have hhosts : (metadata.filter fun entry => f entry.1 = f httpHostKey).filterMap (hostOf H) =
      metadata.filterMap (hostOf H) :=
    filterMap_filter_key fun entry _ value h => congrArg f (hostOf_key h)
  have hrest : (metadata.filter fun entry => ¬ f entry.1 = f httpHostKey).filterMap
      (valueOf H "host") = metadata.filterMap (valueOf H "host") := by
    rw [List.filterMap_filter]
    apply List.filterMap_congr
    intro entry hentry
    by_cases hkey : f entry.1 = f httpHostKey
    · rw [hfirst entry (List.mem_filter.mpr ⟨hentry, decide_eq_true hkey⟩), ite_self]
    · exact if_pos (decide_eq_true hkey)
  rw [partsOf, List.foldl_append, getAll_foldl_addEntry hH hN hothers, hrest,
    getAll_host_foldl_addEntry hH hN hfirst, hhosts, hvalue]
  rfl

/-- However its entries are ordered, the request is the same, and its one `Host` is that of the
`HttpHost`. -/
structure Steadfast (H : Http) (f : String → String) (connect : ConnectRequest) : Prop where
  oneHost : ∀ request, buildRequest H connect = .ok request →
    ∃ value, (connect.metadata.filterMap (hostOf H)).getLast? = some value ∧
      H.getAll request.headers "host" = [value]
  unordered : ∀ metadata, Reorders (fun entry => f entry.1) connect.metadata metadata →
    ∀ request request', buildRequest H connect = .ok request →
      buildRequest H { connect with metadata } = .ok request' → SameRequest request request'

theorem steadfast_iff_of_key (hH : H.Lawful) (hN : H.PlainNames)
    (hf : ∀ key, f key = f httpHostKey → key = httpHostKey) {connect : ConnectRequest}
    {uri : H.Uri} (huri : H.uriTryFrom connect.destination = .ok uri)
    (hhost : connect.metadata.filterMap (hostOf H) ≠ []) :
    Steadfast H f connect ↔
      NamesNoHost H connect.metadata ∧ AgreesAcross H f connect.metadata := by
  constructor
  · intro h
    have hsame : ∀ metadata, Reorders (fun entry => f entry.1) connect.metadata metadata →
        ∀ name, H.getAll (partsOf H connect.metadata).2 name =
          H.getAll (partsOf H metadata).2 name := by
      intro metadata horder
      exact (h.unordered metadata horder _ _ (buildRequest_eq huri)
        (@buildRequest_eq H { connect with metadata } uri huri)).values
    have hnames : NamesNoHost H connect.metadata := by
      obtain ⟨value, hvalue, hone⟩ := h.oneHost _ (buildRequest_eq huri)
      obtain ⟨metadata, horder, hfirst⟩ := getAll_host_first hH hN hf hvalue
      rw [hsame metadata horder, hfirst] at hone
      exact List.filterMap_eq_nil_iff.mp (List.cons.inj hone).2
    refine ⟨hnames, ?_⟩
    intro name entry hentry entry' hentry' value value' hvalue hvalue' hkey
    have hname : name ≠ "host" := by
      rintro rfl
      rw [hnames entry hentry] at hvalue
      cases hvalue
    obtain ⟨before, after, horder, horder'⟩ :=
      exists_reorders_swap (f := fun entry => f entry.1) hentry hentry' hkey
    have hswap := (hsame _ horder name).symm.trans (hsame _ horder' name)
    rw [partsOf, partsOf, getAll_foldl_addEntry hH hN fun _ _ h => absurd h hname,
      getAll_foldl_addEntry hH hN fun _ _ h => absurd h hname] at hswap
    simp only [List.filterMap_append, List.filterMap_cons_some hvalue,
      List.filterMap_cons_some hvalue', List.append_cancel_left_eq] at hswap
    exact (List.cons.inj hswap).1
  · rintro ⟨hnames, hagrees⟩
    constructor
    case oneHost =>
      intro request hrequest
      rw [buildRequest_eq huri] at hrequest
      cases hrequest
      refine ⟨_, List.getLast?_eq_some_getLast hhost, ?_⟩
      show H.getAll (partsOf H connect.metadata).2 "host" = _
      rw [partsOf, getAll_host_foldl_addEntry hH hN hnames, List.getLast?_eq_some_getLast hhost]
      rfl
    case unordered =>
      intro metadata horder request request' hrequest hrequest'
      rw [buildRequest_eq huri] at hrequest
      rw [@buildRequest_eq H { connect with metadata } uri huri] at hrequest'
      cases hrequest
      cases hrequest'
      obtain ⟨hmethod, hvalues⟩ := partsOf_reorders hH hN horder hnames hagrees
      exact ⟨hmethod, rfl, rfl, hvalues⟩

end Orders

/-! ### Keys of header names -/

theorem foldKey_valueOf (hN : H.PlainNames) {name : String} {entry : String × String}
    {value : H.HeaderValue} (h : valueOf H name entry = some value) :
    foldKey entry.1 = headerKeyPrefix ++ name := by
  obtain ⟨header, hheader, h⟩ := Option.bind_eq_some_iff.mp h
  obtain ⟨hname, _⟩ := Option.ite_none_right_eq_some.mp h
  obtain ⟨text, htext, hheader⟩ := Option.bind_eq_some_iff.mp hheader
  obtain ⟨n, hn, hheader⟩ := Option.bind_eq_some_iff.mp hheader
  obtain ⟨v, _, hheader⟩ := Option.bind_eq_some_iff.mp hheader
  cases hheader
  rw [foldKey, htext, ← hname, hN.nameFromBytes_eq text n hn]

theorem agreesAcross_foldKey (hN : H.PlainNames) (metadata : List (String × String)) :
    AgreesAcross H foldKey metadata := by
  intro name entry _ entry' _ value value' hvalue hvalue' hkey
  rw [foldKey_valueOf hN hvalue, foldKey_valueOf hN hvalue'] at hkey
  exact absurd rfl hkey

theorem foldKey_eq_host {key : String} (h : foldKey key = foldKey httpHostKey) :
    key = httpHostKey := by
  have hhost : foldKey httpHostKey = httpHostKey := by decide
  rw [hhost, foldKey] at h
  split at h
  · next name _ =>
      have hstrip := stripPrefix_append headerKeyPrefix (asciiLowercase name)
      have hnone : stripPrefix httpHostKey headerKeyPrefix = none := by decide
      rw [h, hnone] at hstrip
      cases hstrip
  · exact h

/-- **The request has the one `Host` of its `HttpHost`, whatever the order of its entries, if and
only if no `HttpHeader:` names `host`** – provided that keys that name one header in different
letter case count as one key; if they do not, those must also agree on the value. -/
theorem steadfast_iff (hH : H.Lawful) (hN : H.PlainNames) {connect : ConnectRequest} {uri : H.Uri}
    (huri : H.uriTryFrom connect.destination = .ok uri)
    (hhost : ∃ entry ∈ connect.metadata, (hostOf H entry).isSome = true) :
    (Steadfast H foldKey connect ↔ NamesNoHost H connect.metadata) ∧
      (Steadfast H id connect ↔
        NamesNoHost H connect.metadata ∧ AgreesAcross H id connect.metadata) := by
  replace hhost : connect.metadata.filterMap (hostOf H) ≠ [] := by
    obtain ⟨entry, hentry, hsome⟩ := hhost
    obtain ⟨value, hvalue⟩ := Option.isSome_iff_exists.mp hsome
    exact List.ne_nil_of_mem (List.mem_filterMap.mpr ⟨entry, hentry, hvalue⟩)
  constructor
  · rw [steadfast_iff_of_key hH hN (fun key => foldKey_eq_host) huri hhost]
    exact and_iff_left (agreesAcross_foldKey hN connect.metadata)
  · exact steadfast_iff_of_key hH hN (fun key h => h) huri hhost

/-! ### On concrete entries -/

def hostEntries (key : String) : ConnectRequest where
  destination := "http://a/"
  connectionType := .http
  metadata := [(httpHostKey, "a"), (key, "b")]

theorem steadfast_hostEntries :
    Steadfast Http.plain foldKey (hostEntries "HttpHeader:Accept") ∧
      Steadfast Http.plain id (hostEntries "HttpHeader:Accept") := by
  obtain ⟨hfold, hid⟩ := @steadfast_iff Http.plain Http.lawful_plain Http.plainNames_plain
    (hostEntries "HttpHeader:Accept") "http://a/" rfl ⟨(httpHostKey, "a"), .head _, by decide⟩
  have hnames : NamesNoHost Http.plain (hostEntries "HttpHeader:Accept").metadata := by
    intro entry hentry
    rcases List.mem_pair.mp hentry with rfl | rfl
    · decide
    · decide
  have hhost : ∀ name, valueOf Http.plain name (httpHostKey, "a") = none := fun _ => rfl
  refine ⟨hfold.mpr hnames, hid.mpr ⟨hnames, ?_⟩⟩
  intro name entry hentry entry' hentry' value value' hvalue hvalue' hkey
  rcases List.mem_pair.mp hentry with rfl | rfl
  · rw [hhost] at hvalue
    cases hvalue
  · rcases List.mem_pair.mp hentry' with rfl | rfl
    · rw [hhost] at hvalue'
      cases hvalue'
    · exact absurd rfl hkey

/-- A second `Host`, next to that of the `HttpHost`. -/
theorem not_steadfast_hostEntries :
    ¬ Steadfast Http.plain foldKey (hostEntries "HttpHeader:Host") ∧
      ¬ Steadfast Http.plain id (hostEntries "HttpHeader:Host") := by
  have htwo : (Http.plain.getAll (partsOf Http.plain (hostEntries "HttpHeader:Host").metadata).2
      "host").length = 2 := by decide
  have hnot : ∀ f, ¬ Steadfast Http.plain f (hostEntries "HttpHeader:Host") := by
    intro f h
    obtain ⟨value, _, hone⟩ := h.oneHost _ (@buildRequest_eq _ _ "http://a/" rfl)
    rw [hone] at htwo
    cases htwo
  exact ⟨hnot foldKey, hnot id⟩

/-! ## What comes back of a request -/

/-- The entries a request is described by. -/
def requestEntries (method host : String) (headers : List (String × String)) :
    List (String × String) :=
  (httpMethodKey, method) :: (httpHostKey, host) ::
    headers.map fun (name, value) => (headerKeyPrefix ++ name, value)

/-- A key that `build_request` looks at. -/
def isRequestKey (key : String) : Bool :=
  key = httpMethodKey || key = httpHostKey || startsWith key headerKeyPrefix

theorem addEntry_of_not_isRequestKey (parts : H.Method × H.HeaderMap) {entry : String × String}
    (h : isRequestKey entry.1 = false) : addEntry H parts entry = parts := by
  simp only [isRequestKey, Bool.or_eq_false_iff, decide_eq_false_iff_not] at h
  obtain ⟨⟨hmethod, hhost⟩, hheader⟩ := h
  have hnone : headerOf H entry = none := by
    apply headerOf_of_stripPrefix_none
    rw [stripPrefix, hheader]
    rfl
  rw [addEntry_header parts hmethod (if_neg hhost), hnone]
  rfl

theorem partsOf_filter (metadata : List (String × String)) :
    partsOf H (metadata.filter fun entry => isRequestKey entry.1) = partsOf H metadata := by
  rw [partsOf, partsOf]
  generalize (H.methodGet, H.emptyMap) = parts
  induction metadata generalizing parts with
  | nil => rfl
  | cons entry metadata ih =>
      cases hkey : isRequestKey entry.1 with
      | true => rw [List.filter_cons_of_pos (by simpa using hkey), List.foldl_cons,
          List.foldl_cons, ih]
      | false =>
          rw [List.filter_cons_of_neg (by rw [hkey]; exact Bool.false_ne_true), ih,
            List.foldl_cons, addEntry_of_not_isRequestKey parts hkey]

/-- A header that `build_request` takes, and that is not `Host`. -/
structure IsHeader (H : Http) (header : String × String) : Prop where
  name : ∃ n, H.nameFromBytes (utf8 header.1) = some n
  value : ∃ v, H.valueFromStr header.2 = some v
  notHost : asciiLowercase header.1 ≠ "host"

theorem valueOf_header (hN : H.PlainNames) {header : String × String} (h : IsHeader H header)
    (name : String) :
    valueOf H name (headerKeyPrefix ++ header.1, header.2) =
      if asciiLowercase header.1 = name then H.valueFromStr header.2 else none := by
  obtain ⟨n, hn⟩ := h.name
  obtain ⟨v, hv⟩ := h.value
  have hheader : headerOf H (headerKeyPrefix ++ header.1, header.2) = some (n, v) := by
    rw [headerOf, stripPrefix_append]
    simp [hn, hv]
  rw [valueOf, hheader, Option.bind_some, hN.nameFromBytes_eq header.1 n hn, hv]

theorem filterMap_valueOf_requestEntries (hN : H.PlainNames) {method host : String}
    {headers : List (String × String)} (h : ∀ header ∈ headers, IsHeader H header)
    (name : String) :
    ((requestEntries method host headers).filterMap (valueOf H name)).map some =
      (valuesOf (headers.map fun header => (asciiLowercase header.1, header.2)) name).map
        H.valueFromStr := by
  have hnone : ∀ key value, stripPrefix key headerKeyPrefix = none →
      valueOf H name (key, value) = none := by
    intro key value hkey
    have hheader : headerOf H (key, value) = none := by
      apply headerOf_of_stripPrefix_none
      exact hkey
    rw [valueOf, hheader]
    rfl
  have hmethod : valueOf H name (httpMethodKey, method) = none := by
    apply hnone
    decide
  have hhost : valueOf H name (httpHostKey, host) = none := by
    apply hnone
    decide
  rw [requestEntries, List.filterMap_cons_none hmethod, List.filterMap_cons_none hhost,
    List.filterMap_map, valuesOf, List.filterMap_map]
  induction headers with
  | nil => rfl
  | cons header headers ih =>
      have hheader := h header List.mem_cons_self
      obtain ⟨v, hv⟩ := hheader.value
      have hvalue := valueOf_header hN hheader name
      have hrest := ih fun header' h' => h header' (List.mem_cons_of_mem _ h')
      rw [List.filterMap_cons, List.filterMap_cons]
      simp only [Function.comp_apply, hvalue]
      by_cases hname : asciiLowercase header.1 = name
      · simp only [if_pos hname, hv, List.map_cons]
        exact congrArg (some v :: ·) hrest
      · simp only [if_neg hname]
        exact hrest

/-- **A request comes back as it was described**, in whatever order its entries come and whatever
other entries there are. -/
theorem buildRequest_requestEntries (hH : H.Lawful) (hN : H.PlainNames) {method host : String}
    {headers : List (String × String)} {m : H.Method} {value : H.HeaderValue} {uri : H.Uri}
    (hmethod : H.methodFromBytes (utf8 method) = some m) (hhost : H.valueFromStr host = some value)
    (hheaders : ∀ header ∈ headers, IsHeader H header) {connect : ConnectRequest}
    (huri : H.uriTryFrom connect.destination = .ok uri)
    (horder : Reorders (fun entry => foldKey entry.1) (requestEntries method host headers)
      (connect.metadata.filter fun entry => isRequestKey entry.1)) :
    ∃ request, buildRequest H connect = .ok request ∧
      request.method = m ∧ request.uri = uri ∧
      H.getAll request.headers "host" = [value] ∧
      (∀ name, name ≠ "host" → (H.getAll request.headers name).map some =
        (valuesOf (headers.map fun header => (asciiLowercase header.1, header.2)) name).map
          H.valueFromStr) ∧
      buildRequest H { connect with
        metadata := connect.metadata.filter fun entry => isRequestKey entry.1 } = .ok request := by
  have hnames : NamesNoHost H (requestEntries method host headers) := by
    apply List.filterMap_eq_nil_iff.mp
    have hlisted := @filterMap_valueOf_requestEntries H hN method host headers hheaders "host"
    have hnone : valuesOf (headers.map fun header => (asciiLowercase header.1, header.2)) "host" =
        [] := by
      rw [valuesOf, List.filterMap_eq_nil_iff]
      intro header hheader
      obtain ⟨header, hmem, rfl⟩ := List.mem_map.mp hheader
      exact if_neg (hheaders header hmem).notHost
    rw [hnone] at hlisted
    exact List.map_eq_nil_iff.mp hlisted
  obtain ⟨hsame, hvalues⟩ := partsOf_reorders hH hN horder hnames (agreesAcross_foldKey hN _)
  rw [partsOf_filter] at hsame hvalues
  have hothers : ∀ entry ∈ headers.map fun (name, value) => (headerKeyPrefix ++ name, value),
      methodOf H entry = none ∧ hostOf H entry = none := by
    intro entry hentry
    obtain ⟨header, _, rfl⟩ := List.mem_map.mp hentry
    have hkey : ∀ key, stripPrefix key headerKeyPrefix = none →
        headerKeyPrefix ++ header.1 ≠ key := by
      rintro key hnone rfl
      rw [stripPrefix_append] at hnone
      cases hnone
    exact ⟨if_neg (hkey _ (by decide)), if_neg (hkey _ (by decide))⟩
  refine ⟨_, buildRequest_eq huri, ?_, rfl, ?_, ?_, ?_⟩
  · have hmethods : (requestEntries method host headers).filterMap (methodOf H) = [m] := by
      have hone : methodOf H (httpMethodKey, method) = some m := by
        rw [methodOf, if_pos rfl, hmethod]
        rfl
      have hkeys : httpHostKey ≠ httpMethodKey := by decide
      have hnone : methodOf H (httpHostKey, host) = none := if_neg hkeys
      rw [requestEntries, List.filterMap_cons_some hone, List.filterMap_cons_none hnone,
        List.filterMap_eq_nil_iff.mpr fun entry h => (hothers entry h).1]
    show (partsOf H connect.metadata).1 = m
    rw [← hsame, partsOf, fst_foldl_addEntry, hmethods]
    rfl
  · have hhosts : (requestEntries method host headers).filterMap (hostOf H) = [value] := by
      have hone : hostOf H (httpHostKey, host) = some value := by
        rw [hostOf, if_pos rfl, hhost]
      have hkeys : httpMethodKey ≠ httpHostKey := by decide
      have hnone : hostOf H (httpMethodKey, method) = none := if_neg hkeys
      rw [requestEntries, List.filterMap_cons_none hnone, List.filterMap_cons_some hone,
        List.filterMap_eq_nil_iff.mpr fun entry h => (hothers entry h).2]
    show H.getAll (partsOf H connect.metadata).2 "host" = [value]
    rw [← hvalues, partsOf, getAll_host_foldl_addEntry hH hN hnames, hhosts]
    rfl
  · intro name hname
    show (H.getAll (partsOf H connect.metadata).2 name).map some = _
    rw [← hvalues, partsOf, getAll_foldl_addEntry hH hN fun _ _ h => absurd h hname,
      hH.getAll_emptyMap, List.nil_append]
    exact filterMap_valueOf_requestEntries hN hheaders name
  · refine (@buildRequest_eq H { connect with
      metadata := connect.metadata.filter fun entry => isRequestKey entry.1 } uri huri).trans ?_
    show Except.ok (Request.mk (partsOf H (connect.metadata.filter _)).1 uri
      (partsOf H (connect.metadata.filter _)).2 _) = _
    rw [partsOf_filter]

/-- The header before the host, the host before the method, and an entry of another kind. -/
def shuffledEntries : ConnectRequest where
  destination := "http://a/"
  connectionType := .http
  metadata := [("HttpHeader:Accept", "b"), ("Other", "c"), (httpHostKey, "a"),
    (httpMethodKey, "GET")]

theorem buildRequest_shuffledEntries :
    ∃ request, buildRequest Http.plain shuffledEntries = .ok request ∧
      request.method = ([71, 69, 84] : List UInt8) ∧ request.uri = "http://a/" ∧
      Http.plain.getAll request.headers "host" = [(⟨[97], by decide⟩ : PlainValue)] := by
  have hheaders : ∀ header ∈ [("Accept", "b")], IsHeader Http.plain header := by
    intro header hheader
    obtain rfl := List.mem_singleton.mp hheader
    exact ⟨⟨_, rfl⟩, ⟨_, rfl⟩, by decide⟩
  have hlast : Reorders (fun entry : String × String => foldKey entry.1)
      ([(httpMethodKey, "GET"), (httpHostKey, "a")] ++ [(headerKeyPrefix ++ "Accept", "b")])
      ([(headerKeyPrefix ++ "Accept", "b")] ++ [(httpMethodKey, "GET"), (httpHostKey, "a")]) :=
    reorders_comm (by decide)
  have hhost : Reorders (fun entry : String × String => foldKey entry.1)
      ([(httpMethodKey, "GET")] ++ [(httpHostKey, "a")])
      ([(httpHostKey, "a")] ++ [(httpMethodKey, "GET")]) :=
    reorders_comm (by decide)
  obtain ⟨request, hbuild, hmethod, huri, hone, _⟩ :=
    @buildRequest_requestEntries Http.plain Http.lawful_plain Http.plainNames_plain "GET" "a"
      [("Accept", "b")] _ _ _ rfl rfl hheaders shuffledEntries rfl
      (hlast.trans (Reorders.append (.refl _ _) hhost))
  exact ⟨request, hbuild, hmethod, huri, hone⟩

end Libcfd.Edge
