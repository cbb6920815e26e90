import Libcfd.Origin.Axum
import Libcfd.Origin.Body
import Libcfd.Edge.H2.Stream
import Mathlib.Data.Bool.AllAny

/-!
# Serving through an axum router

`serve_router` hands the request of an edge to a router, with its body as a stream of chunks, and
takes the router's response for the origin's. The body is read through one buffer of 8192 bytes:
whatever reader it is, the chunks of the stream are what the reader had to give, in pieces that are
not empty and fit the buffer. So a stream is whole as a request body; as a response body it is
whole only while it is a single chunk, since the reader of the response begins later chunks late.
A router that sends its request back is where the two meet.
-/

namespace Libcfd.Origin

open Libcfd.Reader Libcfd.Rpc

/-! ## Bodies that are polled -/

/-- `BodyInner`: nothing, a cursor in some bytes, or a reader. -/
inductive BodyInner (σ : Type) where
  | empty
  | bytes (data : List UInt8) (position : Nat)
  | reader (reader : σ)

/-- A body as its constructors leave it. -/
inductive FreshBody (σ : Type) where
  | empty
  | fromBytes (bytes : List UInt8)
  | fromReader (reader : σ)

namespace FreshBody

variable {σ : Type}

def inner : FreshBody σ → BodyInner σ
  | .empty => .empty
  | .fromBytes bytes => .bytes bytes 0
  | .fromReader reader => .reader reader

def sizeHint : FreshBody σ → Option Nat
  | .empty => some 0
  | .fromBytes bytes => some bytes.length
  | .fromReader _ => none

end FreshBody

namespace BodyInner

variable {σ : Type}

/-- `Body::poll_read`. -/
def pollRead (poll : Nat → σ → Polled UInt8 IoError × σ) (room : Nat) :
    BodyInner σ → Polled UInt8 IoError × BodyInner σ
  | .empty => (.atEnd, .empty)
  | .bytes data position =>
      (.ready (.ok ((data.drop position).take room)),
        .bytes data (position + ((data.drop position).take room).length))
  | .reader source => ((poll room source).1, .reader (poll room source).2)

def Holds (Inv : σ → Prop) : BodyInner σ → Prop
  | .reader source => Inv source
  | _ => True

def owed (owes : σ → List UInt8) : BodyInner σ → List UInt8
  | .empty => []
  | .bytes data position => data.drop position
  | .reader source => owes source

def size (bound : σ → Nat) : BodyInner σ → Nat
  | .empty => 0
  | .bytes data position => (data.drop position).length
  | .reader source => bound source

def Ended (Done : σ → Prop) : BodyInner σ → Prop
  | .reader source => Done source
  | _ => True

/-- A body is as honest as its reader. -/
theorem honest {poll : Nat → σ → Polled UInt8 IoError × σ} {Inv : σ → Prop}
    {owes : σ → List UInt8} {bound : σ → Nat} {Done : σ → Prop}
    (h : Honest poll Inv owes bound Done) :
    Honest (pollRead poll) (Holds Inv) (owed owes) (size bound) (Ended Done) where
  keeps body room hinv hroom := by
    cases body with
    | empty => trivial
    | bytes data position => trivial
    | reader source => exact h.keeps source room hinv hroom
  pays body room hinv hroom := by
    cases body with
    | empty => exact ⟨rfl, fun _ => ⟨rfl, trivial⟩, fun hend => absurd rfl hend⟩
    | bytes data position =>
        have htake : (data.drop position).take room ++
            data.drop (position + ((data.drop position).take room).length) =
              data.drop position := by
          rw [← List.drop_drop, List.length_take]
          rcases Nat.le_total room (data.drop position).length with hle | hle
          · rw [Nat.min_eq_left hle, List.take_append_drop]
          · rw [Nat.min_eq_right hle, List.take_of_length_le hle, List.drop_length,
              List.append_nil]
        refine ⟨htake, fun hend => ?_, fun hend => ?_⟩
        · have hnone : (data.drop position).take room = [] := Except.ok.inj (Polled.ready.inj hend)
          refine ⟨?_, trivial⟩
          rcases List.take_eq_nil_iff.mp hnone with hzero | hnil
          · omega
          · exact hnil
        · have hsome : (data.drop position).take room ≠ [] := fun hnil => by
            refine hend ?_
            show (Polled.ready (Except.ok ((data.drop position).take room)) : Polled _ IoError) = _
            rw [hnil]
          have hpos := List.length_pos_iff.mpr hsome
          have hlength := congrArg List.length htake
          rw [List.length_append] at hlength
          show (data.drop _).length < (data.drop position).length
          omega
    | reader source =>
        obtain ⟨hpays, hends, hshrinks⟩ := h.pays source room hinv hroom
        exact ⟨hpays, hends, hshrinks⟩
  fits body room := by
    cases body with
    | empty => exact Nat.zero_le _
    | bytes data position => exact List.length_take_le _ _
    | reader source => exact h.fits source room

end BodyInner

/-! ## The stream of a request body -/

/-- `BodyReadStream`: a body, and the buffer it is read through. -/
structure BodyReadStream (σ : Type) where
  body : Option σ
  buffer : List UInt8
  length : Nat

def StreamReply.bytes : StreamReply → List UInt8
  | .data chunk => chunk
  | _ => []

namespace BodyReadStream

variable {σ : Type}

def bufferSize : Nat := 8192

def new (body : σ) : BodyReadStream σ := ⟨some body, List.replicate bufferSize 0, 0⟩

/-- Give out the front of the buffer; a slice that is longer than the buffer panics. -/
def takeChunk (stream : BodyReadStream σ) : Option (Option StreamReply × BodyReadStream σ) :=
  if stream.length ≤ stream.buffer.length then
    some (some (.data (stream.buffer.take stream.length)), { stream with length := 0 })
  else none

/-- What is read stands at the front of the buffer. -/
def fill (stream : BodyReadStream σ) (body : σ) (piece : List UInt8) : BodyReadStream σ where
  body := some body
  buffer := piece ++ stream.buffer.drop piece.length
  length := piece.length

/-- `poll_next`: a reply, or the end of the stream; none of both is a panic. -/
def pollNext (poll : Nat → σ → Polled UInt8 IoError × σ) (stream : BodyReadStream σ) :
    Option (Option StreamReply × BodyReadStream σ) :=
  if stream.length = 0 then
    match stream.body with
    | none => none
    | some body =>
        match poll stream.buffer.length body with
        | (.ready (.ok []), body) => some (none, { stream with body := some body })
        | (.ready (.ok (b :: piece)), body) => (stream.fill body (b :: piece)).takeChunk
        | (.ready (.error e), body) =>
            some (some (.failed e.message), { stream with body := some body })
        | (.pending, body) => some (some .pending, { stream with body := some body })
  else stream.takeChunk

/-- Poll until the end of the stream, at most `turns` times: the replies on the way, and the stream
at its end. -/
def collect (poll : Nat → σ → Polled UInt8 IoError × σ) :
    (turns : Nat) → BodyReadStream σ → Option (List StreamReply × BodyReadStream σ)
  | 0, _ => none
  | turns + 1, stream =>
      match pollNext poll stream with
      | none => none
      | some (none, stream) => some ([], stream)
      | some (some reply, stream) =>
          (collect poll turns stream).map fun (replies, last) => (reply :: replies, last)

/-! ### One poll -/

/-- Between its polls a stream has nothing in its buffer that it has not given out. -/
structure Idle (stream : BodyReadStream σ) (body : σ) : Prop where
  body_eq : stream.body = some body
  buffer_length : stream.buffer.length = bufferSize
  length_eq : stream.length = 0

theorem idle_new (body : σ) : (new body).Idle body := ⟨rfl, List.length_replicate, rfl⟩

variable {poll : Nat → σ → Polled UInt8 IoError × σ} {Inv : σ → Prop} {owes : σ → List UInt8}
  {bound : σ → Nat} {Done : σ → Prop} {stream : BodyReadStream σ} {body : σ}

/-- What a poll of the reader comes to for the stream. -/
def replyOf : Polled UInt8 IoError → Option StreamReply
  | .ready (.ok []) => none
  | .ready (.ok piece) => some (.data piece)
  | .ready (.error e) => some (.failed e.message)
  | .pending => some .pending

theorem replyOf_eq_none {polled : Polled UInt8 IoError} :
    replyOf polled = none ↔ polled = .atEnd := by
  rcases polled with _ | ⟨_ | piece⟩
  · simp [replyOf]
  · simp [replyOf]
  · cases piece <;> simp [replyOf]

/-- A poll of the stream is one of its reader with the whole buffer, and leaves it idle. -/
theorem pollNext_idle (h : Honest poll Inv owes bound Done) (hidle : stream.Idle body) :
    ∃ next, pollNext poll stream = some (replyOf (poll bufferSize body).1, next) ∧
      next.Idle (poll bufferSize body).2 := by
  obtain ⟨hbody, hbuffer, hlength⟩ := hidle
  have hfits := h.fits body bufferSize
  rcases hpoll : poll bufferSize body with ⟨polled, body'⟩
  rw [hpoll] at hfits
  have hnext : pollNext poll stream = match (polled, body') with
      | (.ready (.ok []), body) => some (none, { stream with body := some body })
      | (.ready (.ok (b :: piece)), body) => (stream.fill body (b :: piece)).takeChunk
      | (.ready (.error e), body) =>
          some (some (.failed e.message), { stream with body := some body })
      | (.pending, body) => some (some .pending, { stream with body := some body }) := by
    rw [pollNext, if_pos hlength, hbody]
    dsimp only
    rw [hbuffer, hpoll]
  rcases polled with _ | ⟨e | piece⟩
  · exact ⟨_, hnext, rfl, hbuffer, hlength⟩
  · exact ⟨_, hnext, rfl, hbuffer, hlength⟩
  · cases piece with
    | nil => exact ⟨_, hnext, rfl, hbuffer, hlength⟩
    | cons b piece =>
        have hle : (b :: piece).length ≤ bufferSize := hfits
        have htotal : (stream.fill body' (b :: piece)).buffer.length = bufferSize := by
          show ((b :: piece) ++ stream.buffer.drop (b :: piece).length).length = _
          rw [List.length_append, List.length_drop, hbuffer]
          omega
        refine ⟨{ stream.fill body' (b :: piece) with length := 0 }, ?_, rfl, htotal, rfl⟩
        rw [hnext]
        show (stream.fill body' (b :: piece)).takeChunk = _
        rw [takeChunk, if_pos (htotal ▸ hle)]
        show some (some (StreamReply.data (((b :: piece) ++
          stream.buffer.drop (b :: piece).length).take (b :: piece).length)), _) = _
        rw [List.take_left']
        · rfl
        · rfl

/-! ### To the end -/

/-- What a stream gives out: all of the bytes, in chunks that have some and that fit the buffer. -/
structure Gives (all : List UInt8) (replies : List StreamReply) : Prop where
  flatten_eq : (AxumBodyReader.chunks replies).flatten = all
  ne_nil : ∀ chunk ∈ AxumBodyReader.chunks replies, chunk ≠ []
  length_le : ∀ chunk ∈ AxumBodyReader.chunks replies, chunk.length ≤ bufferSize

theorem gives_cons {all : List UInt8} {replies : List StreamReply} {polled : Polled UInt8 IoError}
    {reply : StreamReply} (hreply : replyOf polled = some reply)
    (hfits : polled.bytes.length ≤ bufferSize) (h : Gives all replies) :
    Gives (polled.bytes ++ all) (reply :: replies) := by
  rcases polled with _ | ⟨e | piece⟩
  · cases hreply
    exact ⟨h.flatten_eq, h.ne_nil, h.length_le⟩
  · cases hreply
    exact ⟨h.flatten_eq, h.ne_nil, h.length_le⟩
  · cases piece with
    | nil => cases hreply
    | cons b piece =>
        cases hreply
        refine ⟨?_, ?_, ?_⟩
        · show ((b :: piece) :: AxumBodyReader.chunks replies).flatten = _
          rw [List.flatten_cons, h.flatten_eq]
          rfl
        · intro chunk hchunk
          rcases List.mem_cons.mp hchunk with rfl | hchunk
          · exact List.cons_ne_nil b piece
          · exact h.ne_nil chunk hchunk
        · intro chunk hchunk
          rcases List.mem_cons.mp hchunk with rfl | hchunk
          · exact hfits
          · exact h.length_le chunk hchunk

/-- The stream of an honest reader comes to its end, without a panic on the way. -/
theorem collect_of_honest (h : Honest poll Inv owes bound Done) (hinv : Inv body)
    (hidle : stream.Idle body) :
    ∃ turns replies last body', collect poll turns stream = some (replies, last) ∧
      Gives (owes body) replies ∧ last.Idle body' ∧ Done body' := by
  induction hsize : bound body using Nat.strongRecOn generalizing stream body with
  | ind n ih =>
      obtain ⟨next, hnext, hidle'⟩ := pollNext_idle h hidle
      have hroom : 0 < bufferSize := Nat.succ_pos _
      obtain ⟨hpays, hends, hshrinks⟩ := h.pays body bufferSize hinv hroom
      cases hreply : replyOf (poll bufferSize body).1 with
      | none =>
          obtain ⟨hnothing, hdone⟩ := hends (replyOf_eq_none.mp hreply)
          refine ⟨1, [], next, _, ?_, ⟨?_, List.forall_mem_nil _, List.forall_mem_nil _⟩, hidle',
            hdone⟩
          · rw [collect, hnext, hreply]
          · exact hnothing.symm
      | some reply =>
          have hmore : (poll bufferSize body).1 ≠ .atEnd := fun hend => by
            rw [replyOf_eq_none.mpr hend] at hreply
            cases hreply
          obtain ⟨turns, replies, last, body', hrest, hgives, hlast, hdone⟩ :=
            ih _ (hsize ▸ hshrinks hmore) (h.keeps body bufferSize hinv hroom) hidle' rfl
          refine ⟨turns + 1, reply :: replies, last, body', ?_, ?_, hlast, hdone⟩
          · rw [collect, hnext, hreply]
            dsimp only
            rw [hrest]
            rfl
          · rw [← hpays]
            exact gives_cons hreply (h.fits body bufferSize) hgives

/-- More turns change nothing. -/
theorem collect_mono {turns : Nat} {replies : List StreamReply} {last : BodyReadStream σ}
    (h : collect poll turns stream = some (replies, last)) :
    collect poll (turns + 1) stream = some (replies, last) := by
  induction turns generalizing stream replies with
  | zero => cases h
  | succ turns ih =>
      rw [collect] at h ⊢
      rcases hnext : pollNext poll stream with _ | ⟨_ | reply, next⟩
      · simp only [hnext] at h
        cases h
      · simp only [hnext] at h ⊢
        exact h
      · simp only [hnext, Option.map_eq_some_iff] at h ⊢
        obtain ⟨⟨rest, _⟩, hrest, ⟨⟩⟩ := h
        exact ⟨_, ih hrest, rfl⟩

theorem collect_le {turns turns' : Nat} {replies : List StreamReply} {last : BodyReadStream σ}
    (h : collect poll turns stream = some (replies, last)) (hle : turns ≤ turns') :
    collect poll turns' stream = some (replies, last) := by
  induction hle with
  | refl => exact h
  | step _ ih => exact collect_mono ih

theorem collect_unique {turns turns' : Nat} {replies replies' : List StreamReply}
    {last last' : BodyReadStream σ} (h : collect poll turns stream = some (replies, last))
    (h' : collect poll turns' stream = some (replies', last')) :
    replies = replies' ∧ last = last' := by
  have hmax := collect_le h (Nat.le_max_left turns turns')
  rw [collect_le h' (Nat.le_max_right turns turns')] at hmax
  cases hmax
  exact ⟨rfl, rfl⟩

/-- Bytes in memory come in the pieces that a copy would find. -/
theorem collect_bytes {stream : BodyReadStream (BodyInner σ)} {data : List UInt8} {position : Nat}
    (h : Honest poll Inv owes bound Done) (hidle : stream.Idle (.bytes data position)) :
    ∃ turns last, collect (BodyInner.pollRead poll) turns stream =
      some ((cursorPieces (data.drop position)).map .data, last) := by
  induction hn : (data.drop position).length using Nat.strongRecOn
    generalizing stream position with
  | ind n ih =>
      obtain ⟨next, hnext, hidle'⟩ := pollNext_idle (BodyInner.honest h) hidle
      have hpolled : (BodyInner.pollRead poll bufferSize (.bytes data position)).1 =
          .ready (.ok ((data.drop position).take bufferSize)) := rfl
      rw [hpolled] at hnext
      rw [cursorPieces]
      split
      · next hnil =>
          rw [hnil, List.take_nil] at hnext
          refine ⟨1, next, ?_⟩
          rw [collect, hnext]
          rfl
      · next hsome =>
          obtain ⟨b, rest, heq⟩ := List.exists_cons_of_ne_nil
            (show (data.drop position).take bufferSize ≠ [] from fun hnil =>
              (List.take_eq_nil_iff.mp hnil).elim (fun h => by cases h) hsome)
          have hlength : (data.drop
              (position + ((data.drop position).take bufferSize).length)).length < n := by
            have hpos := List.length_pos_iff.mpr hsome
            rw [← List.drop_drop, List.length_drop, List.length_take]
            have hsize : 0 < bufferSize := Nat.succ_pos _
            omega
          obtain ⟨turns, last, hrest⟩ := ih _ hlength hidle' rfl
          have hdrop : data.drop (position + ((data.drop position).take bufferSize).length) =
              (data.drop position).drop copyBuffer := by
            rw [← List.drop_drop, List.length_take]
            rcases Nat.le_total bufferSize (data.drop position).length with hle | hle
            · rw [Nat.min_eq_left hle]
              rfl
            · rw [Nat.min_eq_right hle, List.drop_length]
              exact (List.drop_eq_nil_of_le hle).symm
          rw [hdrop] at hrest
          refine ⟨turns + 1, last, ?_⟩
          have htake : (data.drop position).take copyBuffer = b :: rest := heq
          rw [heq] at hnext
          rw [collect, hnext, List.map_cons, htake]
          show (collect (BodyInner.pollRead poll) turns next).map _ = _
          rw [hrest]
          rfl

end BodyReadStream

/-! ## The body of an HTTP/2 request -/

namespace ReceiveStream

open Libcfd.Edge.H2 Libcfd.Edge.H2.ReceiveStreamReader

variable {Flow : Type} {F : FlowControl Flow} {reader : ReceiveStreamReader Flow}

/-- The bytes that have not been read. -/
def owed (reader : ReceiveStreamReader Flow) : List UInt8 :=
  reader.rest.flatten.drop reader.position

/-- A reader that has come from a new one by polls. -/
def Sound (F : FlowControl Flow) (reader : ReceiveStreamReader Flow) : Prop :=
  ∃ all done read, Accounts F all done read reader

theorem read_append_owed {all done : List (List UInt8)} {read : List UInt8}
    (h : Accounts F all done read reader) : read ++ owed reader = all.flatten := by
  obtain ⟨⟨replies, flow, released⟩, chunk, position, eof, hwithin, hexhausted⟩ := reader
  rw [h.read_eq, h.all_eq, List.flatten_append, List.append_assoc]
  congr 1
  cases chunk with
  | none =>
      have hposition : position = 0 := h.fresh rfl
      subst hposition
      rfl
  | some chunk =>
      have hlt : position < chunk.length := hwithin chunk rfl
      show chunk.take position ++ (chunk :: AxumBodyReader.chunks replies).flatten.drop position = _
      rw [List.flatten_cons, List.drop_append_of_le_length (Nat.le_of_lt hlt), ← List.append_assoc,
        List.take_append_drop]
      rfl

theorem fits_copyChunk (room : Nat) (receive : RecvStream Flow) (chunk : List UInt8)
    (position : Nat) : (copyChunk F room receive chunk position).1.bytes.length ≤ room := by
  have hpiece : ((chunk.drop position).take (min (chunk.length - position) room)).length ≤ room :=
    Nat.le_trans (List.length_take_le _ _) (Nat.min_le_right _ _)
  unfold copyChunk
  dsimp only
  split
  · exact hpiece
  · cases receive.releaseCapacity F chunk.length with
    | error message => exact Nat.zero_le _
    | ok receive' => exact hpiece

theorem fits_pollData (room position : Nat) (replies : List StreamReply) (flow : Flow)
    (released : List Nat) :
    (pollData F room position replies flow released).1.bytes.length ≤ room := by
  induction replies generalizing position flow with
  | nil => exact Nat.zero_le _
  | cons reply replies ih =>
      cases reply with
      | pending => exact Nat.zero_le _
      | failed message => exact Nat.zero_le _
      | data chunk =>
          rw [pollData]
          split
          · exact fits_copyChunk ..
          · exact ih ..

/-- The reader of an HTTP/2 request body is honest. -/
theorem honest (hF : F.Lawful) :
    Honest (pollRead F) (Sound F) owed ReceiveStreamReader.size (fun reader => reader.eof = true)
    where
  keeps reader room hsound hroom := by
    obtain ⟨all, done, read, h⟩ := hsound
    obtain ⟨done', h'⟩ := (delivers_pollRead hF hroom h).accounts
    exact ⟨all, done', _, h'⟩
  pays reader room hsound hroom := by
    obtain ⟨all, done, read, h⟩ := hsound
    obtain ⟨⟨done', h'⟩, hends, -, -, hshrinks⟩ := delivers_pollRead hF hroom h
    have hpays : (pollRead F room reader).1.bytes ++ owed (pollRead F room reader).2 =
        owed reader := by
      have heq := read_append_owed h'
      rw [← read_append_owed h, List.append_assoc] at heq
      exact List.append_cancel_left heq
    refine ⟨hpays, fun hend => ⟨?_, hends hend⟩, hshrinks⟩
    obtain ⟨hreplies, hchunk⟩ := (pollRead F room reader).2.exhausted (hends hend)
    rw [← hpays, hend, owed, rest, hreplies, hchunk]
    exact List.drop_nil
  fits reader room := by
    rw [pollRead]
    split
    · exact Nat.zero_le _
    · split
      · split
        · exact fits_copyChunk ..
        · exact fits_pollData ..
      · exact fits_pollData ..

theorem sound_new (flow : Flow) (replies : List StreamReply) :
    Sound F (ReceiveStreamReader.new ⟨replies, flow, []⟩) := by
  refine ⟨AxumBodyReader.chunks replies, [], [], rfl, rfl, rfl, fun _ => rfl, fun c hc => ?_⟩
  cases hc

end ReceiveStream

/-! ## `serve_router` -/

/-- A request as a transport makes it. -/
structure BodyRequest (H : Http) (σ : Type) where
  method : H.Method
  uri : H.Uri
  headers : H.HeaderMap
  body : FreshBody σ

structure AxumRequest (H : Http) (σ : Type) where
  method : H.Method
  uri : H.Uri
  headers : H.HeaderMap
  body : BodyReadStream (BodyInner σ)

/-- A router's response, with what the polls of its body find. -/
structure AxumResponse (H : Http) where
  status : UInt16
  headers : H.HeaderMap
  body : List StreamReply

/-- The response that is sent on: its body is to be polled. -/
structure PolledResponse (H : Http) where
  status : UInt16
  headers : H.HeaderMap
  body : AxumBodyReader

section Router

variable {H : Http} {σ : Type}

/-- The content length is the size hint, where there is one. -/
def requestHeaders (H : Http) (headers : H.HeaderMap) : Option Nat → Except String H.HeaderMap
  | none => .ok headers
  | some size =>
      match H.valueFromStr (toString size) with
      | none => .error "bad content length: failed to parse header value"
      | some value => .ok (H.insert headers (H.nameFromStatic "content-length") value)

/-- The router itself does not fail, and a request of parts that are valid can be built. -/
def serveRouter (router : AxumRequest H σ → AxumResponse H) (request : BodyRequest H σ) :
    Except String (PolledResponse H) := do
  let headers ← requestHeaders H request.headers request.body.sizeHint
  let response := router ⟨request.method, request.uri, headers, .new request.body.inner⟩
  return ⟨response.status, response.headers, .new response.body⟩

/-- `AxumOrigin::handle`, by what the responder is given. -/
def AxumOrigin.handle (router : AxumRequest H σ → AxumResponse H) (request : BodyRequest H σ) :
    Except String (PolledResponse H) :=
  (serveRouter router request).mapError fun message => "origin handler error: " ++ message

variable {poll : Nat → σ → Polled UInt8 IoError × σ} {Inv : σ → Prop} {owes : σ → List UInt8}
  {bound : σ → Nat} {Done : σ → Prop} {router : AxumRequest H σ → AxumResponse H}
  {request : BodyRequest H σ}

/-- What the router is given of a request whose body has these bytes. -/
structure Hands (poll : Nat → σ → Polled UInt8 IoError × σ) (request : BodyRequest H σ)
    (all : List UInt8) (call : AxumRequest H σ) : Prop where
  method : call.method = request.method
  uri : call.uri = request.uri
  stream : call.body = .new request.body.inner
  contentLength : request.body.sizeHint.isSome = true →
    (H.getAll call.headers "content-length").map H.valueAsBytes = [utf8 (toString all.length)]
  headers : ∀ name, name ≠ "content-length" ∨ request.body.sizeHint = none →
    H.getAll call.headers name = H.getAll request.headers name
  body : ∃ turns replies last, BodyReadStream.collect (BodyInner.pollRead poll) turns call.body =
    some (replies, last) ∧ BodyReadStream.Gives all replies

theorem requestHeaders_eq (hH : H.Lawful) (headers : H.HeaderMap) (hint : Option Nat) :
    ∃ sent, requestHeaders H headers hint = .ok sent ∧
      (∀ size ∈ hint, (H.getAll sent "content-length").map H.valueAsBytes =
        [utf8 (toString size)]) ∧
      ∀ name, name ≠ "content-length" ∨ hint = none →
        H.getAll sent name = H.getAll headers name := by
  cases hint with
  | none =>
      exact ⟨headers, rfl, fun size hsize => (Option.not_mem_none size hsize).elim, fun _ _ => rfl⟩
  | some size =>
      obtain ⟨value, hvalue, hbytes⟩ := hH.fromStr_eq (toString size)
        fun b hb => (isVisible_toString _ b hb).admitted
      have hname : H.nameAsStr (H.nameFromStatic "content-length") = "content-length" := by
        rw [hH.nameAsStr_fromStatic _ (List.all_iff_forall_prop.mp (by decide))]
        decide
      refine ⟨H.insert headers (H.nameFromStatic "content-length") value, ?_, fun n hn => ?_,
        fun name hother => ?_⟩
      · rw [requestHeaders, hvalue]
      · cases hn
        rw [hH.getAll_insert, if_pos hname, List.map_singleton, hbytes]
      · rw [hH.getAll_insert, hname, if_neg]
        intro heq
        exact hother.elim (fun hne => hne heq.symm) fun hnone => by cases hnone

/-- A hint is the number of bytes. -/
theorem length_owed_of_hint {body : FreshBody σ} {size : Nat} (h : body.sizeHint = some size) :
    (body.inner.owed owes).length = size := by
  cases body with
  | empty => exact Option.some.inj h
  | fromBytes bytes => exact Option.some.inj h
  | fromReader source => cases h

/-- **A router is given the request as it is**: whatever reader the body has, the chunks of its
stream are the bytes that the reader had to give, none of them empty or longer than the buffer, and
no poll panics; a content length that is put in is the number of these bytes, and all that comes of
the response is the router's. -/
theorem serveRouter_hands (hH : H.Lawful) (h : Honest poll Inv owes bound Done)
    (router : AxumRequest H σ → AxumResponse H) {request : BodyRequest H σ}
    (hinv : request.body.inner.Holds Inv) :
    ∃ call, Hands poll request (request.body.inner.owed owes) call ∧
      serveRouter router request =
        .ok ⟨(router call).status, (router call).headers, .new (router call).body⟩ := by
  obtain ⟨headers, hheaders, hlength, hothers⟩ :=
    requestHeaders_eq hH request.headers request.body.sizeHint
  obtain ⟨turns, replies, last, _, hcollect, hgives, -⟩ :=
    BodyReadStream.collect_of_honest (BodyInner.honest h) hinv
      (BodyReadStream.idle_new request.body.inner)
  refine ⟨⟨request.method, request.uri, headers, .new request.body.inner⟩,
    ⟨rfl, rfl, rfl, fun hsome => ?_, hothers, turns, replies, last, hcollect, hgives⟩, ?_⟩
  · obtain ⟨size, hsize⟩ := Option.isSome_iff_exists.mp hsome
    rw [length_owed_of_hint hsize]
    exact hlength size hsize
  · rw [serveRouter, hheaders]
    rfl

/-- "hi" in two frames, in a request over HTTP/2. -/
def uploadHi : BodyRequest Http.ofLists (Edge.H2.ReceiveStreamReader Nat) where
  method := [80, 79, 83, 84]
  uri := "/"
  headers := []
  body := .fromReader (.new ⟨[.data [104], .pending, .data [], .data [105]], 0, []⟩)

/-- It answers with the method it has been given. -/
def tellMethod (call : AxumRequest Http.ofLists (Edge.H2.ReceiveStreamReader Nat)) :
    AxumResponse Http.ofLists where
  status := 200
  headers := []
  body := [.data call.method]

theorem serveRouter_hands_hi :
    ∃ call, Hands (Edge.H2.ReceiveStreamReader.pollRead Edge.H2.ReceiveStreamReader.inFlight)
        uploadHi [104, 105] call ∧
      serveRouter tellMethod uploadHi = .ok ⟨200, [], .new [.data [80, 79, 83, 84]]⟩ := by
  obtain ⟨call, hhands, hserve⟩ := serveRouter_hands Http.lawful_ofLists
    (ReceiveStream.honest Edge.H2.ReceiveStreamReader.lawful_inFlight) tellMethod
    (show uploadHi.body.inner.Holds _ from ReceiveStream.sound_new _ _)
  have hbody : (tellMethod call).body = [.data [80, 79, 83, 84]] := by
    show [StreamReply.data call.method] = _
    rw [hhands.method]
    rfl
  rw [hbody] at hserve
  exact ⟨call, hhands, hserve⟩

/-! ## A router that sends its request back -/

/-- The response has what the polls of the request's body find. -/
def IsEcho (poll : Nat → σ → Polled UInt8 IoError × σ)
    (router : AxumRequest H σ → AxumResponse H) : Prop :=
  ∀ call turns replies last, BodyReadStream.collect (BodyInner.pollRead poll) turns call.body =
    some (replies, last) → (router call).body = replies

open Classical in
/-- The router that does so. -/
noncomputable def echo (poll : Nat → σ → Polled UInt8 IoError × σ) (call : AxumRequest H σ) :
    AxumResponse H where
  status := 200
  headers := H.emptyMap
  body :=
    if h : ∃ replies turns last, BodyReadStream.collect (BodyInner.pollRead poll) turns call.body =
      some (replies, last) then h.choose else []

theorem isEcho_echo (poll : Nat → σ → Polled UInt8 IoError × σ) :
    IsEcho poll (echo (H := H) poll) := by
  intro call turns replies last hcollect
  have hsome : ∃ replies turns last, BodyReadStream.collect (BodyInner.pollRead poll) turns
      call.body = some (replies, last) := ⟨replies, turns, last, hcollect⟩
  obtain ⟨turns', last', hchosen⟩ := hsome.choose_spec
  refine (dif_pos hsome).trans ?_
  exact (BodyReadStream.collect_unique hchosen hcollect).1

theorem AxumBodyReader.chunks_map_data (pieces : List (List UInt8)) :
    AxumBodyReader.chunks (pieces.map .data) = pieces := by
  induction pieces with
  | nil => rfl
  | cons piece pieces ih => exact congrArg (piece :: ·) ih

theorem spaced_iff_of_ne_nil {chunks : List (List UInt8)} (h : ∀ chunk ∈ chunks, chunk ≠ []) :
    AxumBodyReader.Spaced chunks ↔ chunks.length ≤ 1 := by
  rcases chunks with _ | ⟨first, _ | ⟨second, rest⟩⟩
  · exact ⟨fun _ => Nat.zero_le 1, fun _ => .nil⟩
  · exact ⟨fun _ => Nat.le_refl 1, fun _ => .singleton first⟩
  · have hfirst : first ≠ [] := h first List.mem_cons_self
    have hsecond : second ≠ [] := h second (List.mem_cons_of_mem _ List.mem_cons_self)
    refine ⟨fun hspaced => ?_, fun hle => absurd hle (by simp)⟩
    rw [AxumBodyReader.Spaced, List.isChain_cons_cons] at hspaced
    exact absurd hspaced.1 (not_or.mpr ⟨hfirst, hsecond⟩)

theorem length_cursorPieces_le_one {bytes : List UInt8} :
    (cursorPieces bytes).length ≤ 1 ↔ bytes.length ≤ copyBuffer := by
  rw [cursorPieces]
  split
  · next hnil =>
      subst hnil
      exact ⟨fun _ => Nat.zero_le _, fun _ => Nat.zero_le _⟩
  · rw [List.length_cons, cursorPieces]
    split
    · next hnil =>
        exact ⟨fun _ => List.drop_eq_nil_iff.mp hnil, fun _ => Nat.le_refl 1⟩
    · next hsome =>
        refine ⟨fun hle => ?_, fun hle => absurd (List.drop_eq_nil_of_le hle) hsome⟩
        rw [List.length_cons] at hle
        omega

theorem length_le_of_gives {all : List UInt8} {replies : List StreamReply}
    (h : BodyReadStream.Gives all replies)
    (hone : (AxumBodyReader.chunks replies).length ≤ 1) :
    all.length ≤ BodyReadStream.bufferSize := by
  rw [← h.flatten_eq]
  have hle := h.length_le
  rcases hchunks : AxumBodyReader.chunks replies with _ | ⟨first, _ | ⟨second, rest⟩⟩
  · exact Nat.zero_le _
  · rw [List.flatten_singleton]
    exact hle first (hchunks ▸ List.mem_cons_self)
  · rw [hchunks] at hone
    exact absurd hone (by simp)

/-- **An echo is whole just as long as it is one chunk** of the stream that the request's body is
read as: from whatever reader, a body of more than 8192 bytes never comes back whole, and one in
memory comes back whole if it is not longer; so it is whatever room the polls of the response
have. -/
theorem echo_whole_iff (hH : H.Lawful) (h : Honest poll Inv owes bound Done)
    (hrouter : IsEcho poll router) (hinv : request.body.inner.Holds Inv) {room : Nat → Nat}
    (hroom : ∀ i, 0 < room i) :
    ∃ response turns replies stream turns' read last, serveRouter router request = .ok response ∧
      BodyReadStream.collect (BodyInner.pollRead poll) turns (.new request.body.inner) =
        some (replies, stream) ∧
      BodyReadStream.Gives (request.body.inner.owed owes) replies ∧
      readToEnd AxumBodyReader.pollRead turns' room response.body = some (read, last) ∧
      (read = request.body.inner.owed owes ↔ (AxumBodyReader.chunks replies).length ≤ 1) ∧
      (read = request.body.inner.owed owes →
        (request.body.inner.owed owes).length ≤ BodyReadStream.bufferSize) ∧
      ∀ bytes, request.body = .fromBytes bytes →
        (read = bytes ↔ bytes.length ≤ BodyReadStream.bufferSize) := by
  obtain ⟨call, hhands, hserve⟩ := serveRouter_hands hH h router hinv
  obtain ⟨turns, replies, stream, hcollect, hgives⟩ := hhands.body
  have hbody : (router call).body = replies := hrouter call turns replies stream hcollect
  rw [hbody] at hserve
  rw [hhands.stream] at hcollect
  obtain ⟨turns', last', hread, -⟩ :=
    readToEnd_of_pays AxumBodyReader.pays_pollRead (.new replies) hroom
  have hyields : (AxumBodyReader.new replies).owed =
      AxumBodyReader.yields 0 (AxumBodyReader.chunks replies) := rfl
  have hwhole : (AxumBodyReader.new replies).owed = request.body.inner.owed owes ↔
      (AxumBodyReader.chunks replies).length ≤ 1 := by
    rw [hyields, ← hgives.flatten_eq, ← spaced_iff_of_ne_nil hgives.ne_nil]
    exact (@AxumBodyReader.yields_eq_flatten_iff [] _).trans AxumBodyReader.spaced_nil_cons
  refine ⟨_, turns, replies, stream, turns', _, last', hserve, hcollect, hgives, hread, hwhole,
    fun heq => length_le_of_gives hgives (hwhole.mp heq), ?_⟩
  intro bytes hbytes
  have howed : request.body.inner.owed owes = bytes := by
    rw [hbytes]
    rfl
  rw [howed] at hwhole
  have hidle := BodyReadStream.idle_new (.bytes bytes 0 : BodyInner σ)
  obtain ⟨turns'', last'', hpieces⟩ := BodyReadStream.collect_bytes h hidle
  have hinner : request.body.inner = .bytes bytes 0 := by
    rw [hbytes]
    rfl
  rw [hinner] at hcollect
  obtain ⟨rfl, -⟩ := BodyReadStream.collect_unique hcollect hpieces
  rw [hwhole, AxumBodyReader.chunks_map_data]
  exact length_cursorPieces_le_one

/-- The same request with its body in memory. -/
def uploadBytes (bytes : List UInt8) : BodyRequest Http.ofLists (Edge.H2.ReceiveStreamReader Nat) :=
  { uploadHi with body := .fromBytes bytes }

/-- Two bytes come back whole, 8193 do not. -/
theorem echo_whole_iff_bytes :
    (∃ response turns read last,
      serveRouter (echo (Edge.H2.ReceiveStreamReader.pollRead
        Edge.H2.ReceiveStreamReader.inFlight)) (uploadBytes [104, 105]) = .ok response ∧
      readToEnd AxumBodyReader.pollRead turns (fun _ => 8192) response.body = some (read, last) ∧
      read = [104, 105]) ∧
    ∃ response turns read last,
      serveRouter (echo (Edge.H2.ReceiveStreamReader.pollRead
        Edge.H2.ReceiveStreamReader.inFlight)) (uploadBytes (List.replicate 8193 0)) =
          .ok response ∧
      readToEnd AxumBodyReader.pollRead turns (fun _ => 8192) response.body = some (read, last) ∧
      read ≠ List.replicate 8193 0 := by
  have hroom : ∀ i, 0 < (fun _ => 8192 : Nat → Nat) i := fun _ => Nat.succ_pos _
  constructor
  · obtain ⟨response, _, _, _, turns, read, last, hserve, _, _, hread, _, _, hbytes⟩ :=
      @echo_whole_iff _ _ _ _ _ _ _ _ (uploadBytes [104, 105]) Http.lawful_ofLists
        (ReceiveStream.honest Edge.H2.ReceiveStreamReader.lawful_inFlight) (isEcho_echo _) trivial
        _ hroom
    refine ⟨response, turns, read, last, hserve, hread, (hbytes [104, 105] rfl).mpr ?_⟩
    simp [BodyReadStream.bufferSize]
  · obtain ⟨response, _, _, _, turns, read, last, hserve, _, _, hread, _, _, hbytes⟩ :=
      @echo_whole_iff _ _ _ _ _ _ _ _ (uploadBytes (List.replicate 8193 0)) Http.lawful_ofLists
        (ReceiveStream.honest Edge.H2.ReceiveStreamReader.lawful_inFlight) (isEcho_echo _) trivial
        _ hroom
    refine ⟨response, turns, read, last, hserve, hread, fun hwhole => ?_⟩
    have hle := (hbytes (List.replicate 8193 0) rfl).mp hwhole
    rw [List.length_replicate] at hle
    exact absurd hle (by decide)

end Router

end Libcfd.Origin
