import Libcfd.Edge.Quic.Quiche.Upload
import Libcfd.Edge.Quic.Quinn.Upload

/-!
# Uploads over QUIC

A handler that has answered may go on reading the body of its request, while `drain_unread` reads
what it has left; with quiche, `serve_stream` may be handed the stream again, and read it for a new
request. `upload_sound` says how far that goes well, with either backend; what happens beyond it is
in `not_sound_behind_drain`.
-/

namespace Libcfd.Edge.Quic

open Libcfd.Machine Libcfd.Reader Libcfd.Edge.Serve

/-- **An upload is sound as long as the handler's reads miss nothing**, with either backend and
whatever the order of steps. -/
theorem upload_sound (Q : Quinn.Crate) (halves : Q.Halves) (ls : List (Quinn.Receiving.Label Q))
    (recv : Quiche.RecvSide) (coming : List UInt8) (hcoming : recv.fin = true → coming = [])
    (ls' : List Quiche.Receiving.Label) :
    (Q.Lawful → Q.Fits → Q.isStopped halves = false →
      Always Quinn.Receiving.step (Quinn.Receiving.ReadsClear (Q.rest halves))
        (Quinn.Receiving.start halves) ls →
      Upload.Sound Quinn.Receiving.step Quinn.Receiving.upload Quinn.Receiving.rest
        Quinn.Receiving.returns (Q.rest halves) (Quinn.Receiving.start halves) ls) ∧
    (recv.stopped = false →
      Always Quiche.Receiving.step (Quiche.Receiving.ReadsClear (recv.unread ++ coming))
        (Quiche.Receiving.start recv coming hcoming) ls' →
      Upload.Sound Quiche.Receiving.step Quiche.Receiving.upload Quiche.Receiving.rest
        Quiche.Receiving.returns (recv.unread ++ coming)
        (Quiche.Receiving.start recv coming hcoming) ls') := by
  constructor
  · intro hQ hfits hopen hC
    exact Quinn.Receiving.sound_of_readsClear hQ hfits hopen hC
  · intro hopen hC
    exact Quiche.Receiving.sound_of_readsClear hcoming hopen hC

theorem fits_buffers : Quinn.Crate.buffers.Fits := by
  intro room b
  show (Quinn.Buffers.pollRead room b).1.bytes.length ≤ room
  rcases b.pollRead_cases room with ⟨_, heq⟩ | ⟨_, heq⟩ | ⟨_, _, heq⟩ <;> rw [heq]
  · exact Nat.zero_le room
  · exact Nat.zero_le room
  · exact List.length_take_le room b.unread

/-- A stream over quinn on which three bytes are to come. -/
def quinnStart : Quinn.Receiving .buffers := .start (Quinn.Buffers.start [1, 2, 3])

/-- The same over quiche. -/
def quicheStart : Quiche.Receiving := .start .idle [1, 2, 3] nofun

/-- A handler that has read the whole body before the drain reads. -/
theorem upload_sound_behind_handler :
    Upload.Sound Quinn.Receiving.step Quinn.Receiving.upload Quinn.Receiving.rest
      Quinn.Receiving.returns [1, 2, 3] quinnStart
      [.packet (3 : Nat), .spawn, .take .handler 8, .poll .handler, .restore .handler,
        .take .drain 8192, .poll .drain, .restore .drain, .take .handler 8, .poll .handler] ∧
    Upload.Sound Quiche.Receiving.step Quiche.Receiving.upload Quiche.Receiving.rest
      Quiche.Receiving.returns [1, 2, 3] quicheStart
      [.receive 3 true, .spawn, .read .handler 8 none, .read .drain 8192 none,
        .read .handler 8 none] := by
  have hsound := upload_sound .buffers (Quinn.Buffers.start [1, 2, 3])
    [.packet (3 : Nat), .spawn, .take .handler 8, .poll .handler, .restore .handler,
      .take .drain 8192, .poll .drain, .restore .drain, .take .handler 8, .poll .handler]
    .idle [1, 2, 3] nofun
    [.receive 3 true, .spawn, .read .handler 8 none, .read .drain 8192 none,
      .read .handler 8 none]
  constructor
  · refine hsound.1 Quinn.Crate.lawful_buffers fits_buffers rfl ?_
    refine ⟨trivial, ?_⟩
    rintro _ ⟨⟩
    refine ⟨trivial, ?_⟩
    rintro _ ⟨⟩
    refine ⟨fun _ => .inl rfl, ?_⟩
    rintro _ ⟨⟩
    refine ⟨fun _ _ _ => .inl (.inr ⟨rfl, rfl⟩), ?_⟩
    rintro _ ⟨⟩
    refine ⟨trivial, ?_⟩
    rintro _ ⟨⟩
    refine ⟨trivial, ?_⟩
    rintro _ ⟨⟩
    refine ⟨trivial, ?_⟩
    rintro _ ⟨⟩
    refine ⟨trivial, ?_⟩
    rintro _ ⟨⟩
    refine ⟨fun _ => .inl rfl, ?_⟩
    rintro _ ⟨⟩
    exact ⟨fun _ _ _ => .inl (.inr ⟨rfl, rfl⟩), fun _ _ => trivial⟩
  · refine hsound.2 rfl ?_
    refine ⟨trivial, ?_⟩
    rintro _ ⟨⟩
    refine ⟨trivial, ?_⟩
    rintro _ ⟨⟩
    refine ⟨fun _ _ _ => .inr ⟨rfl, rfl⟩, ?_⟩
    rintro _ ⟨⟩
    refine ⟨trivial, ?_⟩
    rintro _ ⟨⟩
    exact ⟨fun _ _ _ => .inr ⟨rfl, rfl⟩, fun _ _ => trivial⟩

/-- With quinn, a read of the handler while the drain polls is at the end of a body of which nothing
has been read. With quiche, the handler reads on behind what the drain has read, or a `serve_stream`
that looks for a signature in the body, and it is at the end of a body of which it has read one
byte. -/
theorem not_sound_behind_drain :
    ¬ Upload.Sound Quinn.Receiving.step Quinn.Receiving.upload Quinn.Receiving.rest
      Quinn.Receiving.returns [1, 2, 3] quinnStart
      [.spawn, .take .drain 8192, .take .handler 8] ∧
    ¬ Upload.Sound Quiche.Receiving.step Quiche.Receiving.upload Quiche.Receiving.rest
      Quiche.Receiving.returns [1, 2, 3] quicheStart
      [.spawn, .receive 1 false, .read .drain 8192 none, .receive 2 true,
        .read .handler 8 none] ∧
    ¬ Upload.Sound Quiche.Receiving.step Quiche.Receiving.upload Quiche.Receiving.rest
      Quiche.Receiving.returns [1, 2, 3] quicheStart
      [.receive 1 false, .read .handler 8 none, .spawn, .receive 2 false,
        .read .drain 8192 none, .receive 0 true, .read .handler 8 none] ∧
    ¬ Upload.Sound Quiche.Receiving.step Quiche.Receiving.upload Quiche.Receiving.rest
      Quiche.Receiving.returns [1, 2, 3] quicheStart
      [.receive 2 false, .release, .accept, .read (.server 0) 6 none, .receive 1 true,
        .read .handler 8 none] := by
  refine ⟨fun h => ?_, fun h => ?_, fun h => ?_, fun h => ?_⟩
  · let before : List (Quinn.Receiving.Label .buffers) := [.spawn, .take .drain 8192]
    have htold := @always_last _ _ _ _ _ _ before (.take .handler 8) rfl h.2
    cases (htold 8 .atEnd rfl (by decide)).complete rfl
  · have hbegins := h.1 _ [] _ (List.append_nil _).symm rfl
    exact absurd hbegins (by decide)
  · let before : List Quiche.Receiving.Label :=
      [.receive 1 false, .read .handler 8 none, .spawn, .receive 2 false,
        .read .drain 8192 none, .receive 0 true]
    have htold := @always_last _ _ _ _ _ _ before (.read .handler 8 none) rfl h.2
    cases (htold 8 .atEnd rfl (by decide)).complete rfl
  · have hbegins := h.1 _ [] _ (List.append_nil _).symm rfl
    exact absurd hbegins (by decide)

end Libcfd.Edge.Quic
