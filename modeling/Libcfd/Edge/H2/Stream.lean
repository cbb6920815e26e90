import Libcfd.Foundation.Reader
import Libcfd.Origin.Axum
import Mathlib.Algebra.GroupWithZero.Nat

/-!
# Reading the body of an HTTP/2 request

`ReceiveStreamReader` cuts the chunks of a request body to the size of the buffers it is given, and
gives the edge back the window of a chunk once it has given out its last byte. Reading and giving
back advance at different moments, through one chunk and one position; `Accounts` is what they keep
between them: the chunks done are those given back, and what was read is these and the chunk at
hand up to the position.
-/

namespace Libcfd.Edge.H2

open Libcfd.Reader Libcfd.Rpc
open Libcfd.Origin (StreamReply)
open Libcfd.Origin.AxumBodyReader (chunks)

/-! ## Flow control -/

/-- The flow control of a stream, which is the h2 crate's: how much capacity is held for data that
has come in, that a chunk comes in, and `release_capacity`. -/
structure FlowControl (Flow : Type) where
  held : Flow → Nat
  receive : Nat → Flow → Flow
  releaseCapacity : Nat → Flow → Except String Flow

/-- Capacity that is held can be released; what comes in meanwhile can only add to it. -/
structure FlowControl.Lawful {Flow : Type} (F : FlowControl Flow) : Prop where
  held_receive (n : Nat) (flow : Flow) : F.held flow + n ≤ F.held (F.receive n flow)
  release {n : Nat} {flow : Flow} (h : n ≤ F.held flow) :
    ∃ flow', F.releaseCapacity n flow = .ok flow'

/-- The receiving half of a stream: what it has still to reply to `poll_data`, and the calls of
`release_capacity` that succeeded. -/
structure RecvStream (Flow : Type) where
  replies : List StreamReply
  flow : Flow
  released : List Nat

variable {Flow : Type}

def RecvStream.releaseCapacity (F : FlowControl Flow) (used : Nat) (receive : RecvStream Flow) :
    Except String (RecvStream Flow) :=
  (F.releaseCapacity used receive.flow).map fun flow =>
    { receive with flow := flow, released := receive.released ++ [used] }

theorem RecvStream.releaseCapacity_of_held {F : FlowControl Flow} (hF : F.Lawful) {used : Nat}
    {receive : RecvStream Flow} (h : used ≤ F.held receive.flow) :
    ∃ flow, receive.releaseCapacity F used =
      .ok ⟨receive.replies, flow, receive.released ++ [used]⟩ := by
  obtain ⟨flow, hflow⟩ := hF.release h
  exact ⟨flow, by rw [releaseCapacity, hflow]; rfl⟩

/-! ## The reader -/

structure ReceiveStreamReader (Flow : Type) where
  receive : RecvStream Flow
  chunk : Option (List UInt8)
  position : Nat
  eof : Bool
  -- a chunk is kept only with bytes left
  within : ∀ c ∈ chunk, position < c.length
  exhausted : eof = true → receive.replies = [] ∧ chunk = none

namespace ReceiveStreamReader

variable (F : FlowControl Flow)

def new (receive : RecvStream Flow) : ReceiveStreamReader Flow :=
  ⟨receive, none, 0, false, nofun, nofun⟩

/-! ### `poll_read` -/

/-- Copy from the chunk at the position. After its last byte the chunk is released; if that fails
the bytes are lost. -/
def copyChunk (room : Nat) (receive : RecvStream Flow) (chunk : List UInt8) (position : Nat) :
    Polled UInt8 IoError × ReceiveStreamReader Flow :=
  let n := min (chunk.length - position) room
  let piece := (chunk.drop position).take n
  if h : position + n < chunk.length then
    (.ready (.ok piece), ⟨receive, some chunk, position + n, false,
      fun _ hc => Option.mem_some.mp hc ▸ h, nofun⟩)
  else
    match receive.releaseCapacity F chunk.length with
    | .error message =>
        (.ready (.error ⟨message⟩), ⟨receive, none, position + n, false, nofun, nofun⟩)
    | .ok receive => (.ready (.ok piece), .new receive)

/-- The loop from `poll_data` on, with no chunk at hand. -/
def pollData (room : Nat) :
    (position : Nat) → List StreamReply → Flow → List Nat →
      Polled UInt8 IoError × ReceiveStreamReader Flow
  | position, [], flow, released =>
      (.ready (.ok []), ⟨⟨[], flow, released⟩, none, position, true, nofun, fun _ => ⟨rfl, rfl⟩⟩)
  | position, .pending :: replies, flow, released =>
      (.pending, ⟨⟨replies, flow, released⟩, none, position, false, nofun, nofun⟩)
  | position, .failed message :: replies, flow, released =>
      (.ready (.error ⟨message⟩),
        ⟨⟨replies, flow, released⟩, none, position, false, nofun, nofun⟩)
  | position, .data chunk :: replies, flow, released =>
      -- back at the top of the loop, with the chunk
      if position < chunk.length then
        copyChunk F room ⟨replies, F.receive chunk.length flow, released⟩ chunk position
      else pollData room 0 replies (F.receive chunk.length flow) released

def pollRead (room : Nat) (reader : ReceiveStreamReader Flow) :
    Polled UInt8 IoError × ReceiveStreamReader Flow :=
  if reader.eof then (.ready (.ok []), reader)
  else
    match reader.chunk with
    | some chunk =>
        if reader.position < chunk.length then
          copyChunk F room reader.receive chunk reader.position
        else pollData F room 0 reader.receive.replies reader.receive.flow reader.receive.released
    | none =>
        pollData F room reader.position reader.receive.replies reader.receive.flow
          reader.receive.released

/-! ### What is still to come -/

/-- The chunks that have not been given out to their last byte. -/
def rest (reader : ReceiveStreamReader Flow) : List (List UInt8) :=
  reader.chunk.toList ++ chunks reader.receive.replies

/-- Every poll but the last gives a byte or takes a reply from the stream. -/
def size (reader : ReceiveStreamReader Flow) : Nat :=
  reader.rest.flatten.length - reader.position + reader.receive.replies.length

/-- The chunks that the first `n` bytes cover. -/
def delivered : (n : Nat) → List (List UInt8) → List (List UInt8)
  | _, [] => []
  | n, chunk :: chunks =>
      if chunk.length ≤ n then chunk :: delivered (n - chunk.length) chunks else []

theorem delivered_append (done chunks : List (List UInt8)) (n : Nat) :
    delivered (done.flatten.length + n) (done ++ chunks) = done ++ delivered n chunks := by
  induction done with
  | nil => rw [List.flatten_nil, List.length_nil, Nat.zero_add]; rfl
  | cons chunk done ih =>
      rw [List.flatten_cons, List.length_append, Nat.add_assoc, List.cons_append, delivered,
        if_pos (Nat.le_add_right ..), Nat.add_sub_cancel_left, ih]
      rfl

/-- No bytes cover none but empty chunks. -/
theorem flatten_delivered_zero (chunks : List (List UInt8)) : (delivered 0 chunks).flatten = [] := by
  induction chunks with
  | nil => rfl
  | cons chunk chunks ih =>
      rw [delivered]
      split
      · next hle =>
          rw [List.flatten_cons, List.eq_nil_of_length_eq_zero (Nat.le_zero.mp hle)]
          exact ih
      · rfl

/-! ### One poll -/

variable {F} {all done : List (List UInt8)} {read : List UInt8} {reader : ReceiveStreamReader Flow}
  {replies : List StreamReply} {flow : Flow} {released : List Nat} {room : Nat}

/-- The calls of `release_capacity` that give some chunks back, one for each that has bytes. -/
def releasesOf (done : List (List UInt8)) : List Nat :=
  (done.map List.length).filter (0 < ·)

theorem releasesOf_concat_nil (done : List (List UInt8)) :
    releasesOf (done ++ [[]]) = releasesOf done := by
  rw [releasesOf, List.map_append, List.filter_append]
  exact List.append_nil _

theorem releasesOf_concat {chunk : List UInt8} (h : 0 < chunk.length) (done : List (List UInt8)) :
    releasesOf (done ++ [chunk]) = releasesOf done ++ [chunk.length] := by
  rw [releasesOf, List.map_append, List.filter_append, List.map_singleton, List.filter_singleton,
    decide_eq_true h]
  rfl

theorem sum_releasesOf (done : List (List UInt8)) : (releasesOf done).sum = done.flatten.length := by
  induction done with
  | nil => rfl
  | cons chunk done ih =>
      rw [List.flatten_cons, List.length_append, ← ih, releasesOf, List.map_cons, List.filter_cons]
      split
      · exact List.sum_cons
      · next hnot =>
          have hzero : chunk.length = 0 := Nat.eq_zero_of_not_pos fun h => hnot (decide_eq_true h)
          rw [hzero, Nat.zero_add]
          rfl

variable (F) in
/-- Of all the chunks, `done` were given out and given back; what was read is these, and what of
the chunk at hand stands before the position. -/
structure Accounts (all done : List (List UInt8)) (read : List UInt8)
    (reader : ReceiveStreamReader Flow) : Prop where
  all_eq : all = done ++ reader.rest
  read_eq : read = done.flatten ++ (reader.chunk.getD []).take reader.position
  released_eq : reader.receive.released = releasesOf done
  fresh : reader.chunk = none → reader.position = 0
  held : ∀ c ∈ reader.chunk, c.length ≤ F.held reader.receive.flow

variable (F) in
/-- What a poll comes to that finds these replies. -/
structure Delivers (all : List (List UInt8)) (read : List UInt8) (replies : List StreamReply)
    (bound : Nat) (polled : Polled UInt8 IoError × ReceiveStreamReader Flow) : Prop where
  accounts : ∃ done, Accounts F all done (read ++ polled.1.bytes) polled.2
  ends : polled.1 = .atEnd → polled.2.eof = true
  faults : ∀ e, polled.1 = .ready (.error e) → .failed e.message ∈ replies
  suffix : polled.2.receive.replies <:+ replies
  shrinks : polled.1 ≠ .atEnd → polled.2.size < bound

theorem copyChunk_of_lt {receive : RecvStream Flow} {chunk : List UInt8} {position n : Nat}
    (hn : n = min (chunk.length - position) room) (h : position + n < chunk.length) :
    copyChunk F room receive chunk position =
      (.ready (.ok ((chunk.drop position).take n)), ⟨receive, some chunk, position + n, false,
        fun _ hc => Option.mem_some.mp hc ▸ h, nofun⟩) := by
  subst hn
  exact dif_pos h

theorem copyChunk_of_le {receive receive' : RecvStream Flow} {chunk : List UInt8}
    {position n : Nat} (hn : n = min (chunk.length - position) room)
    (h : chunk.length ≤ position + n)
    (hrelease : receive.releaseCapacity F chunk.length = .ok receive') :
    copyChunk F room receive chunk position =
      (.ready (.ok ((chunk.drop position).take n)), .new receive') := by
  subst hn
  rw [copyChunk, dif_neg (Nat.not_lt.mpr h), hrelease]

theorem delivers_copyChunk (hF : F.Lawful) {chunk : List UInt8} {position : Nat}
    (hroom : 0 < room) (hposition : position < chunk.length)
    (hall : all = done ++ chunk :: chunks replies)
    (hread : read = done.flatten ++ chunk.take position) (hreleased : released = releasesOf done)
    (hheld : chunk.length ≤ F.held flow) :
    Delivers F all read replies
      ((chunk :: chunks replies).flatten.length - position + replies.length)
      (copyChunk F room ⟨replies, flow, released⟩ chunk position) := by
  obtain ⟨n, hn⟩ : ∃ n, n = min (chunk.length - position) room := ⟨_, rfl⟩
  have hpiece : (chunk.drop position).take n ≠ [] := by
    refine List.ne_nil_of_length_pos ?_
    rw [List.length_take, List.length_drop]
    omega
  have htake : read ++ (chunk.drop position).take n = done.flatten ++ chunk.take (position + n) := by
    rw [hread, List.append_assoc, List.take_add]
  have hlength : (chunk :: chunks replies).flatten.length =
      chunk.length + (chunks replies).flatten.length := by
    rw [List.flatten_cons, List.length_append]
  rcases Nat.lt_or_ge (position + n) chunk.length with hlt | hge
  · rw [copyChunk_of_lt hn hlt]
    refine ⟨⟨done, hall, htake, hreleased, nofun, fun c hc => ?_⟩, fun hend => ?_, nofun,
      List.suffix_refl _, fun _ => ?_⟩
    · cases hc
      exact hheld
    · exact absurd (Except.ok.inj (Polled.ready.inj hend)) hpiece
    · show (chunk :: chunks replies).flatten.length - (position + n) + replies.length < _
      omega
  · obtain ⟨flow', hflow⟩ :=
      @RecvStream.releaseCapacity_of_held _ _ hF _ ⟨replies, flow, released⟩ hheld
    have hwhole : position + n = chunk.length := by omega
    rw [copyChunk_of_le hn hge hflow]
    refine ⟨⟨done ++ [chunk], ?_, ?_, ?_, fun _ => rfl, nofun⟩, fun hend => ?_, nofun,
      List.suffix_refl _, fun _ => ?_⟩
    · rw [hall]
      exact (List.append_assoc done [chunk] _).symm
    · show read ++ (chunk.drop position).take n = (done ++ [chunk]).flatten ++ []
      rw [htake, hwhole, List.take_length, List.flatten_append, List.flatten_singleton,
        List.append_nil]
    · show released ++ [chunk.length] = _
      rw [hreleased, releasesOf_concat (Nat.zero_lt_of_lt hposition)]
    · exact absurd (Except.ok.inj (Polled.ready.inj hend)) hpiece
    · show (chunks replies).flatten.length - 0 + replies.length < _
      omega

theorem delivers_pollData (hF : F.Lawful) (hroom : 0 < room)
    (hall : all = done ++ chunks replies) (hread : read = done.flatten)
    (hreleased : released = releasesOf done) :
    Delivers F all read replies ((chunks replies).flatten.length + replies.length)
      (pollData F room 0 replies flow released) := by
  induction replies generalizing done flow with
  | nil =>
      refine ⟨⟨done, hall, ?_, hreleased, fun _ => rfl, nofun⟩, fun _ => rfl, nofun,
        List.suffix_refl _, fun hend => absurd rfl hend⟩
      rw [hread]
      rfl
  | cons reply replies ih =>
      cases reply with
      | pending =>
          refine ⟨⟨done, hall, ?_, hreleased, fun _ => rfl, nofun⟩, nofun, nofun,
            List.suffix_cons .., fun _ => Nat.lt_succ_self _⟩
          rw [hread]
          rfl
      | failed message =>
          refine ⟨⟨done, hall, ?_, hreleased, fun _ => rfl, nofun⟩, nofun, fun e he => ?_,
            List.suffix_cons .., fun _ => Nat.lt_succ_self _⟩
          · rw [hread]
            rfl
          · cases he
            exact List.mem_cons_self
      | data chunk =>
          have hheld := Nat.le_trans (Nat.le_add_left ..) (hF.held_receive chunk.length flow)
          obtain ⟨haccounts, hends, hfaults, hsuffix, hshrinks⟩ : Delivers F all read replies
              ((chunk :: chunks replies).flatten.length + replies.length)
              (pollData F room 0 (.data chunk :: replies) flow released) := by
            rw [pollData]
            split
            · next hlt =>
                refine delivers_copyChunk hF hroom hlt hall ?_ hreleased hheld
                rw [hread, List.take_zero, List.append_nil]
            · next hge =>
                have hempty := List.eq_nil_of_length_eq_zero (Nat.eq_zero_of_not_pos hge)
                subst hempty
                refine @ih (done ++ [[]]) _ ?_ ?_ ?_
                · rw [hall]
                  exact (List.append_assoc done [[]] _).symm
                · rw [hread, List.flatten_append, List.flatten_singleton, List.append_nil]
                · rw [hreleased, releasesOf_concat_nil]
          exact ⟨haccounts, hends, fun e he => List.mem_cons_of_mem _ (hfaults e he),
            hsuffix.trans (List.suffix_cons ..), fun hend => Nat.lt_succ_of_lt (hshrinks hend)⟩

theorem delivers_pollRead (hF : F.Lawful) (hroom : 0 < room)
    (h : Accounts F all done read reader) :
    Delivers F all read reader.receive.replies reader.size (pollRead F room reader) := by
  obtain ⟨⟨replies, flow, released⟩, chunk, position, eof, hwithin, hexhausted⟩ := reader
  obtain ⟨hall, hread, hreleased, hfresh, hheld⟩ := h
  cases eof with
  | true =>
      refine ⟨⟨done, hall, ?_, hreleased, hfresh, hheld⟩, fun _ => rfl, nofun,
        List.suffix_refl _, fun hend => absurd rfl hend⟩
      rw [hread]
      exact List.append_nil _
  | false =>
      cases chunk with
      | none =>
          cases hfresh rfl
          refine delivers_pollData hF hroom hall ?_ hreleased
          rw [hread]
          exact List.append_nil _
      | some chunk =>
          have hlt : position < chunk.length := hwithin chunk rfl
          have hpoll : pollRead F room
              ⟨⟨replies, flow, released⟩, some chunk, position, false, hwithin, hexhausted⟩ =
                copyChunk F room ⟨replies, flow, released⟩ chunk position := if_pos hlt
          rw [hpoll]
          exact delivers_copyChunk hF hroom hlt hall hread hreleased (hheld chunk rfl)

/-! ### Any number of polls -/

variable (F) in
/-- What holds between the polls of a reader that began with these replies and this size. -/
structure Reading (replies : List StreamReply) (bound : Nat)
    (results : List (Polled UInt8 IoError)) (reader : ReceiveStreamReader Flow) : Prop where
  accounts : ∃ done, Accounts F (chunks replies) done (bytesOf results) reader
  ends : .atEnd ∈ results → reader.eof = true
  faults : ∀ e, .ready (.error e) ∈ results → .failed e.message ∈ replies
  suffix : reader.receive.replies <:+ replies
  shrinks : .atEnd ∉ results → reader.size + results.length ≤ bound

theorem reading_pollRead (hF : F.Lawful) {bound : Nat} {results : List (Polled UInt8 IoError)}
    (h : Reading F replies bound results reader) (hroom : 0 < room) :
    Reading F replies bound (results ++ [(pollRead F room reader).1])
      (pollRead F room reader).2 := by
  obtain ⟨⟨done, haccounts⟩, hends, hfaults, hsuffix, hshrinks⟩ := h
  obtain ⟨haccounts', hends', hfaults', hsuffix', hshrinks'⟩ :=
    delivers_pollRead hF hroom haccounts
  refine ⟨?_, fun hend => ?_, fun e he => ?_, hsuffix'.trans hsuffix, fun hend => ?_⟩
  · rw [bytesOf_concat]
    exact haccounts'
  · rcases List.mem_append.mp hend with hend | hend
    · have heof := hends hend
      rw [pollRead, if_pos heof]
      exact heof
    · exact hends' (List.mem_singleton.mp hend).symm
  · rcases List.mem_append.mp he with he | he
    · exact hfaults e he
    · exact hsuffix.subset (hfaults' e (List.mem_singleton.mp he).symm)
  · rw [List.mem_append, List.mem_singleton, not_or] at hend
    have hbefore := hshrinks hend.1
    have hlast := hshrinks' (Ne.symm hend.2)
    rw [List.length_append, List.length_singleton]
    omega

/-- What some polls come to, of a reader that began with these replies. -/
structure Accurate (replies : List StreamReply)
    (polled : List (Polled UInt8 IoError) × ReceiveStreamReader Flow) : Prop where
  inOrder : bytesOf polled.1 <+: (chunks replies).flatten
  ends : .atEnd ∈ polled.1 →
    bytesOf polled.1 = (chunks replies).flatten ∧ polled.2.receive.replies = []
  released : polled.2.receive.released.sum =
    (delivered (bytesOf polled.1).length (chunks replies)).flatten.length
  -- a call for every chunk that has bytes, of its length
  releasedOnce : .atEnd ∈ polled.1 → polled.2.receive.released = releasesOf (chunks replies)
  faults : ∀ e, .ready (.error e) ∈ polled.1 → .failed e.message ∈ replies

theorem Accounts.sum_released (h : Accounts F all done read reader) :
    reader.receive.released.sum = (delivered read.length all).flatten.length := by
  obtain ⟨⟨replies, flow, released⟩, chunk, position, eof, hwithin, hexhausted⟩ := reader
  obtain ⟨hall, hread, hreleased, hfresh, -⟩ := h
  show released.sum = _
  rw [show released = releasesOf done from hreleased, sum_releasesOf, hread, List.length_append,
    hall, delivered_append, List.flatten_append, List.length_append]
  cases chunk with
  | none =>
      show _ = _ + (delivered (List.take position []).length (chunks replies)).flatten.length
      rw [List.take_nil, List.length_nil, flatten_delivered_zero]
      rfl
  | some chunk =>
      have hlt : position < chunk.length := hwithin chunk rfl
      have htake : (chunk.take position).length = position :=
        List.length_take_of_le (Nat.le_of_lt hlt)
      show _ = _ + (delivered (chunk.take position).length (chunk :: _)).flatten.length
      rw [htake, delivered, if_neg (Nat.not_le.mpr hlt)]
      rfl

theorem Accounts.inOrder (h : Accounts F all done read reader) : read <+: all.flatten := by
  obtain ⟨⟨replies, flow, released⟩, chunk, position, eof, hwithin, hexhausted⟩ := reader
  rw [h.read_eq, h.all_eq, List.flatten_append]
  refine (List.prefix_append_right_inj _).mpr ?_
  cases chunk with
  | none =>
      show List.take position [] <+: _
      rw [List.take_nil]
      exact List.nil_prefix
  | some chunk =>
      show chunk.take position <+: (chunk :: chunks replies).flatten
      rw [List.flatten_cons]
      exact (List.take_prefix ..).trans (List.prefix_append ..)

/-- At the end of the body every chunk is done. -/
theorem Accounts.done_eq (h : Accounts F all done read reader) (heof : reader.eof = true) :
    done = all ∧ read = all.flatten := by
  obtain ⟨hreplies, hchunk⟩ := reader.exhausted heof
  have hdone : done = all := by
    rw [h.all_eq, rest, hreplies, hchunk]
    exact (List.append_nil done).symm
  refine ⟨hdone, ?_⟩
  rw [h.read_eq, hchunk, ← hdone, Option.getD_none, List.take_nil, List.append_nil]

theorem Reading.accurate {bound : Nat} {results : List (Polled UInt8 IoError)}
    (h : Reading F replies bound results reader) : Accurate replies (results, reader) := by
  obtain ⟨⟨done, haccounts⟩, hends, hfaults, -, -⟩ := h
  refine ⟨haccounts.inOrder, fun hend => ?_, haccounts.sum_released, fun hend => ?_, hfaults⟩
  · have heof := hends hend
    exact ⟨(haccounts.done_eq heof).2, (reader.exhausted heof).1⟩
  · rw [← (haccounts.done_eq (hends hend)).1]
    exact haccounts.released_eq

theorem reading_polls (hF : F.Lawful) (flow : Flow) (replies : List StreamReply)
    {rooms : List Nat} (hrooms : ∀ room ∈ rooms, 0 < room) :
    Reading F replies ((chunks replies).flatten.length + replies.length)
      (polls (pollRead F) rooms (new ⟨replies, flow, []⟩)).1
      (polls (pollRead F) rooms (new ⟨replies, flow, []⟩)).2 := by
  have hnew : Reading F replies ((chunks replies).flatten.length + replies.length) []
      (new ⟨replies, flow, []⟩) :=
    ⟨⟨[], rfl, rfl, rfl, fun _ => rfl, nofun⟩, nofun, nofun, List.suffix_refl _,
      fun _ => Nat.le_refl _⟩
  exact polls_induction (Reading F replies _) (fun _ _ _ h hroom => reading_pollRead hF h hroom)
    hnew hrooms

/-- **The body is read as it is, and given back as it is read**, whatever chunks it comes in,
wherever it has nothing to reply yet and whatever room the polls have; enough of them reach the
end. -/
theorem accurate_polls (hF : F.Lawful) (flow : Flow) (replies : List StreamReply) :
    (∀ rooms : List Nat, (∀ room ∈ rooms, 0 < room) →
      Accurate replies (polls (pollRead F) rooms (new ⟨replies, flow, []⟩))) ∧
    ∃ turns, ∀ rooms : List Nat, (∀ room ∈ rooms, 0 < room) → turns ≤ rooms.length →
      .atEnd ∈ (polls (pollRead F) rooms (new ⟨replies, flow, []⟩)).1 := by
  refine ⟨fun rooms hrooms => (reading_polls hF flow replies hrooms).accurate,
    (chunks replies).flatten.length + replies.length + 1, fun rooms hrooms hturns => ?_⟩
  have hreading := reading_polls hF flow replies hrooms
  by_contra hend
  have hshrinks := hreading.shrinks hend
  rw [length_polls] at hshrinks
  omega

/-- Capacity as a number. -/
def inFlight : FlowControl Nat where
  held := id
  receive n held := held + n
  releaseCapacity n held :=
    if n ≤ held then .ok (held - n) else .error "release capacity too big"

theorem lawful_inFlight : inFlight.Lawful where
  held_receive n held := Nat.le_refl (held + n)
  release {n held} h := ⟨held - n, if_pos h⟩

/-- "hi", an empty chunk and "!", three bytes at most at a time. -/
theorem accurate_hi :
    Accurate [.data [104, 105], .pending, .data [], .data [33]]
      (polls (pollRead inFlight) [3, 3, 3, 3]
        (new ⟨[.data [104, 105], .pending, .data [], .data [33]], 0, []⟩)) :=
  (accurate_polls lawful_inFlight 0 [.data [104, 105], .pending, .data [], .data [33]]).1
    [3, 3, 3, 3] (by decide)

end ReceiveStreamReader

end Libcfd.Edge.H2
