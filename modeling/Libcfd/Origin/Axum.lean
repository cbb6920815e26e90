import Libcfd.Foundation.Reader
import Libcfd.Rpc.Error
import Mathlib.Data.List.Chain

/-!
# Reading the body of an axum response

`AxumBodyReader` cuts the chunks of a body stream to the size of the buffers it is given. It keeps
the chunk it is in and its position there, but forgets to take the position back once it has given
out the last byte of a chunk: the next chunk is begun at that position, or skipped if it is not
that long. The reader of the HTTP/2 request bodies, written alike, does take it back.
-/

namespace Libcfd.Origin

open Libcfd.Reader Libcfd.Rpc

/-- What a poll of a body stream comes to; one that has nothing more to reply has ended. -/
inductive StreamReply where
  | pending
  | data (chunk : List UInt8)
  | failed (message : String)
  deriving DecidableEq

structure AxumBodyReader where
  -- the replies still to come
  stream : List StreamReply
  chunk : Option (List UInt8)
  position : Nat
  eof : Bool
  exhausted : eof = true → stream = []

namespace AxumBodyReader

def new (stream : List StreamReply) : AxumBodyReader := ⟨stream, none, 0, false, nofun⟩

/-! ## `poll_read` -/

/-- Copy from the chunk at the position; a chunk with nothing left is not put back. -/
def copyChunk (room : Nat) (stream : List StreamReply) (chunk : List UInt8) (position : Nat) :
    Polled UInt8 IoError × AxumBodyReader :=
  let n := min (chunk.length - position) room
  (.ready (.ok ((chunk.drop position).take n)),
    { stream := stream
      chunk := if position + n < chunk.length then some chunk else none
      position := position + n
      eof := false
      exhausted := nofun })

/-- The loop from `poll_next` on, with no chunk at hand. -/
def pollStream (room position : Nat) :
    List StreamReply → Polled UInt8 IoError × AxumBodyReader
  | [] => (.ready (.ok []), ⟨[], none, position, true, fun _ => rfl⟩)
  | .pending :: stream => (.pending, ⟨stream, none, position, false, nofun⟩)
  | .failed message :: stream =>
      (.ready (.error ⟨message⟩), ⟨stream, none, position, false, nofun⟩)
  | .data chunk :: stream =>
      -- back at the top of the loop, with the chunk
      if position < chunk.length then copyChunk room stream chunk position
      else pollStream room 0 stream

def pollRead (room : Nat) (reader : AxumBodyReader) : Polled UInt8 IoError × AxumBodyReader :=
  if reader.eof then (.ready (.ok []), reader)
  else
    match reader.chunk with
    | some chunk =>
        if reader.position < chunk.length then
          copyChunk room reader.stream chunk reader.position
        else pollStream room 0 reader.stream
    | none => pollStream room reader.position reader.stream

/-! ## What comes of a stream -/

/-- The chunks of a stream. -/
def chunks (stream : List StreamReply) : List (List UInt8) :=
  stream.filterMap fun
    | .data chunk => some chunk
    | _ => none

/-- Where the position stands after a chunk begun there. -/
def positionAfter (position : Nat) (chunk : List UInt8) : Nat :=
  if position < chunk.length then chunk.length else 0

/-- What chunks come to, from a position on: each is begun where the one before it ended. -/
def yields : Nat → List (List UInt8) → List UInt8
  | _, [] => []
  | position, chunk :: chunks =>
      chunk.drop position ++ yields (positionAfter position chunk) chunks

/-- What a reader still has to give. -/
def owed (reader : AxumBodyReader) : List UInt8 :=
  if reader.eof then [] else yields reader.position (reader.chunk.toList ++ chunks reader.stream)

/-- Every poll but the last gives a byte or takes a reply from the stream. -/
def size (reader : AxumBodyReader) : Nat := reader.owed.length + reader.stream.length

theorem yields_cons_of_lt {position : Nat} {chunk : List UInt8} (h : position < chunk.length)
    (chunks : List (List UInt8)) :
    yields position (chunk :: chunks) = chunk.drop position ++ yields chunk.length chunks := by
  rw [yields, positionAfter, if_pos h]

/-- A chunk that is not longer than the position is skipped. -/
theorem yields_cons_of_le {position : Nat} {chunk : List UInt8} (h : chunk.length ≤ position)
    (chunks : List (List UInt8)) : yields position (chunk :: chunks) = yields 0 chunks := by
  rw [yields, positionAfter, if_neg (Nat.not_lt.mpr h), List.drop_eq_nil_of_le h, List.nil_append]

/-! ## One poll -/

/-- A poll of a reader that owes `owes`. -/
abbrev Pays (owes : List UInt8) (bound : Nat) (polled : Polled UInt8 IoError × AxumBodyReader) :
    Prop :=
  Reader.Pays owed size (fun reader => reader.eof = true) owes bound polled

theorem pays_copyChunk {room position : Nat} {chunk : List UInt8} (stream : List StreamReply)
    (hroom : 0 < room) (hposition : position < chunk.length) :
    Pays (yields position (chunk :: chunks stream))
      ((yields position (chunk :: chunks stream)).length + stream.length)
      (copyChunk room stream chunk position) := by
  have howed : (copyChunk room stream chunk position).2.owed =
      chunk.drop (position + min (chunk.length - position) room) ++
        yields chunk.length (chunks stream) := by
    show yields _ _ = _
    unfold copyChunk
    dsimp only
    split
    · next hlt => exact yields_cons_of_lt hlt _
    · next hge =>
        have hlast : position + min (chunk.length - position) room = chunk.length := by omega
        rw [hlast, List.drop_length]
        rfl
  have hpays : (copyChunk room stream chunk position).1.bytes ++
      (copyChunk room stream chunk position).2.owed = yields position (chunk :: chunks stream) := by
    rw [howed, yields_cons_of_lt hposition, ← List.append_assoc]
    congr 1
    show (chunk.drop position).take _ ++ _ = _
    rw [← List.drop_drop, List.take_append_drop]
  have hpos : 0 < (copyChunk room stream chunk position).1.bytes.length := by
    show 0 < ((chunk.drop position).take _).length
    rw [List.length_take, List.length_drop]
    omega
  refine ⟨hpays, fun hend => ?_, fun _ => ?_⟩
  · rw [hend] at hpos
    exact absurd hpos (Nat.lt_irrefl 0)
  · show _ + stream.length < _ + stream.length
    rw [← hpays, List.length_append]
    omega

theorem pays_pollStream {room : Nat} (hroom : 0 < room) (position : Nat)
    (stream : List StreamReply) :
    Pays (yields position (chunks stream))
      ((yields position (chunks stream)).length + stream.length)
      (pollStream room position stream) := by
  induction stream generalizing position with
  | nil => exact ⟨rfl, fun _ => ⟨rfl, rfl⟩, fun hend => absurd rfl hend⟩
  | cons reply stream ih =>
      cases reply with
      | pending => exact ⟨rfl, nofun, fun _ => by simp [pollStream, size, owed, chunks]⟩
      | failed message =>
          exact ⟨rfl, nofun, fun _ => by simp [pollStream, size, owed, chunks]⟩
      | data chunk =>
          rw [pollStream]
          split
          · next hlt =>
              obtain ⟨hpays, hends, hshrinks⟩ := pays_copyChunk stream hroom hlt
              exact ⟨hpays, hends, fun hend => Nat.lt_succ_of_lt (hshrinks hend)⟩
          · next hge =>
              obtain ⟨hpays, hends, hshrinks⟩ := ih 0
              have heq := yields_cons_of_le (Nat.le_of_not_lt hge) (chunks stream)
              show Pays (yields position (chunk :: chunks stream)) _ _
              exact ⟨heq ▸ hpays, heq ▸ hends, fun hend => heq ▸ Nat.lt_succ_of_lt (hshrinks hend)⟩

theorem pays_pollRead (reader : AxumBodyReader) (room : Nat) (hroom : 0 < room) :
    Pays reader.owed reader.size (pollRead room reader) := by
  obtain ⟨stream, chunk, position, eof, hexhausted⟩ := reader
  cases eof with
  | true => exact ⟨rfl, fun _ => ⟨rfl, rfl⟩, fun hend => absurd rfl hend⟩
  | false =>
      cases chunk with
      | none => exact pays_pollStream hroom position stream
      | some chunk =>
          show Pays (yields position (chunk :: chunks stream))
            ((yields position (chunk :: chunks stream)).length + stream.length)
            (if position < chunk.length then copyChunk room stream chunk position
              else pollStream room 0 stream)
          split
          · next hlt => exact pays_copyChunk stream hroom hlt
          · next hge =>
              rw [yields_cons_of_le (Nat.le_of_not_lt hge)]
              exact pays_pollStream hroom 0 stream

/-! ## What is lost -/

/-- Of any two chunks in a row one is empty. -/
def Spaced (chunks : List (List UInt8)) : Prop := chunks.IsChain fun c d => c = [] ∨ d = []

instance (chunks : List (List UInt8)) : Decidable (Spaced chunks) :=
  inferInstanceAs (Decidable (List.IsChain _ chunks))

theorem length_yields_le (position : Nat) (chunks : List (List UInt8)) :
    (yields position chunks).length ≤ chunks.flatten.length := by
  induction chunks generalizing position with
  | nil => exact Nat.le_refl 0
  | cons chunk chunks ih =>
      rw [yields, List.flatten_cons, List.length_append, List.length_append, List.length_drop]
      exact Nat.add_le_add (Nat.sub_le ..) (ih _)

theorem drop_of_spaced {before chunk : List UInt8} (h : before = [] ∨ chunk = []) :
    chunk.drop before.length = chunk := by
  rcases h with rfl | rfl
  · rfl
  · exact List.drop_nil

theorem positionAfter_of_spaced {before chunk : List UInt8} (h : before = [] ∨ chunk = []) :
    positionAfter before.length chunk = chunk.length := by
  rw [positionAfter]
  split
  · rfl
  · next hge =>
      rcases h with rfl | rfl
      · exact (Nat.eq_zero_of_not_pos hge).symm
      · rfl

/-- A chunk is begun at its beginning if the chunk before it, or itself, is empty: a position is as
good as a chunk of that length that came before. -/
theorem yields_eq_flatten_iff {before : List UInt8} (chunks : List (List UInt8)) :
    yields before.length chunks = chunks.flatten ↔ Spaced (before :: chunks) := by
  induction chunks generalizing before with
  | nil => exact ⟨fun _ => .singleton before, fun _ => rfl⟩
  | cons chunk chunks ih =>
      rw [Spaced, List.isChain_cons_cons, ← Spaced, ← ih, yields, List.flatten_cons]
      constructor
      · intro heq
        have hlengths := congrArg List.length heq
        rw [List.length_append, List.length_append, List.length_drop] at hlengths
        have hle := length_yields_le (positionAfter before.length chunk) chunks
        have hspaced : before = [] ∨ chunk = [] := by
          rw [← List.length_eq_zero_iff, ← List.length_eq_zero_iff]
          omega
        rw [drop_of_spaced hspaced, positionAfter_of_spaced hspaced] at heq
        exact ⟨hspaced, List.append_cancel_left heq⟩
      · intro ⟨hspaced, hrest⟩
        rw [drop_of_spaced hspaced, positionAfter_of_spaced hspaced, hrest]

theorem spaced_nil_cons {chunks : List (List UInt8)} : Spaced ([] :: chunks) ↔ Spaced chunks := by
  constructor
  · exact List.IsChain.tail
  · intro h
    cases chunks with
    | nil => exact .singleton []
    | cons chunk chunks => exact .cons_cons (.inl rfl) h

/-- Until the end is read, all that the stream has is read, in order, and the stream has ended by
then. -/
def ReadsAll (stream : List StreamReply) (room : Nat → Nat) : Prop :=
  ∃ turns reader, readToEnd pollRead turns room (.new stream) =
    some ((chunks stream).flatten, reader) ∧ reader.stream = [] ∧ reader.eof = true

/-- **A stream is read as it is if and only if of any two of its chunks in a row one is empty**,
whatever the sizes of the buffers and wherever the stream has nothing to reply yet; that it is
read to an end, and has ended by then, is so in any case. -/
theorem readsAll_iff (stream : List StreamReply) (room : Nat → Nat) (hroom : ∀ i, 0 < room i) :
    (ReadsAll stream room ↔ Spaced (chunks stream)) ∧
      ∃ turns read reader, readToEnd pollRead turns room (.new stream) = some (read, reader) ∧
        reader.stream = [] ∧ reader.eof = true := by
  obtain ⟨turns, last, hread, hended⟩ := readToEnd_of_pays pays_pollRead (.new stream) hroom
  have hiff : yields 0 (chunks stream) = (chunks stream).flatten ↔ Spaced (chunks stream) :=
    (@yields_eq_flatten_iff [] (chunks stream)).trans spaced_nil_cons
  have hstream := last.exhausted hended
  refine ⟨?_, turns, _, last, hread, hstream, hended⟩
  rw [← hiff]
  constructor
  · intro ⟨turns', last', hall, _⟩
    exact (readToEnd_unique hread hall).1
  · intro heq
    exact ⟨turns, last, heq ▸ hread, hstream, hended⟩

/-- Two chunks, with an empty one between them. -/
theorem readsAll_spaced :
    ReadsAll [.data [104, 105], .pending, .data [], .data [33]] fun _ => 1 :=
  (readsAll_iff _ _ fun _ => Nat.one_pos).1.mpr (by decide)

/-- "hello" and " world" are read as "hellod". -/
theorem chunk_begun_late : ¬ ReadsAll
    [.data [104, 101, 108, 108, 111], .data [32, 119, 111, 114, 108, 100]] fun _ => 8192 := by
  intro ⟨turns, reader, hall, _⟩
  obtain ⟨last, hread⟩ : ∃ last, readToEnd pollRead 3 (fun _ => 8192)
      (.new [.data [104, 101, 108, 108, 111], .data [32, 119, 111, 114, 108, 100]]) =
        some ([104, 101, 108, 108, 111, 100], last) := ⟨_, rfl⟩
  have heq := (readToEnd_unique hall hread).1
  revert heq
  decide

end AxumBodyReader

end Libcfd.Origin
