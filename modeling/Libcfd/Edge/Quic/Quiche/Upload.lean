import Libcfd.Edge.Quic.Quiche
import Libcfd.Edge.Serve.Upload
import Mathlib.Logic.Function.Basic

/-!
# The quiche backend: an upload read by several clones

A clone of a stream is an identifier and its own `read_eof`; what there is to read is kept by the
connection, and a poll has the lock on it all along. So no read comes between the steps of another,
but each takes what the next would have read.

The clones are those of the handler and of the drain, and those that come of accepting the stream
again: its task releases it when it ends, and as long as it is readable `accept_stream` yields it.
-/

namespace Libcfd.Edge.Quic.Quiche

open Libcfd.Machine Libcfd.Reader Libcfd.Edge.Serve

open Function (update)

/-- `closed_error`, and `stream_error` of what quiche reports. -/
inductive ReadError where
  | closed
  | stream (message : String)
  deriving DecidableEq, Repr

/-- A stream whose request body is being read. -/
structure Receiving where
  recv : RecvSide
  -- what the peer has not sent yet
  coming : List UInt8
  -- of each clone
  readEof : BodyReader → Bool
  -- of the connection
  closed : Bool
  -- the stream is in the `accepted` set
  accepted : Bool
  upload : Upload
  coming_of_fin : recv.fin = true → coming = []

inductive Receiving.Label where
  -- with the error quiche has for it, if it has one
  | read (reader : BodyReader) (room : Nat) (error : Option String)
  -- the next so many bytes of the body arrive, with or without the FIN
  | receive (n : Nat) (fin : Bool)
  | close
  -- the steps of `drain_unread` besides its reads
  | spawn
  | elapse
  | stop
  -- the task of the stream has ended
  | release
  -- `accept_stream` yields the stream again
  | accept
  -- `stop_read` on a clone of the stream as it was then yielded
  | cut
  deriving DecidableEq, Repr

namespace RecvSide

/-- What arrives is behind what has arrived, and nothing arrives behind the FIN. -/
theorem receive_eq_some {r r' : RecvSide} {bytes : List UInt8} {fin : Bool}
    (h : r.receive bytes fin = some r') :
    r.fin = false ∧ r'.fin = fin ∧ r'.stopped = r.stopped ∧
      r'.unread = if r.stopped then [] else r.unread ++ bytes := by
  unfold receive at h
  split at h
  · cases h
  · next hfin =>
    cases h
    exact ⟨Bool.eq_false_iff.mpr hfin, rfl, rfl, rfl⟩

end RecvSide

namespace Receiving

/-- The clones have read as far as the stream they were cloned from. -/
def start (recv : RecvSide) (coming : List UInt8) (h : recv.fin = true → coming = []) :
    Receiving where
  recv := recv
  coming := coming
  readEof
    | .handler | .drain => recv.finRead
    -- `QuicStream::new`
    | .server _ => false
  closed := false
  accepted := true
  upload := .start
  coming_of_fin := h

/-- The body, as far as it is still to come. -/
def rest (s : Receiving) : List UInt8 := if s.recv.stopped then [] else s.recv.unread ++ s.coming

/-- `poll_read`. The second `stream_recv` finds what the first one did. -/
def pollRead (reader : BodyReader) (room : Nat) (error : Option String) (s : Receiving) :
    Polled UInt8 ReadError × Receiving :=
  if s.closed then (.ready (.error .closed), s)
  else if s.readEof reader then (.atEnd, s)
  else match error with
    | some message => (.ready (.error (.stream message)), s)
    | none =>
        if s.recv.readable then
          (.ready (.ok (s.recv.unread.take room)), { s with
            recv := s.recv.recv room
            readEof := update s.readEof reader (s.recv.recv room).finRead
            coming_of_fin := s.coming_of_fin })
        -- `Done`, or `InvalidStreamState`
        else (.pending, s)

/-- What a read returns in this step, if one does. -/
def returns (s : Receiving) : Label → Option (BodyReader × Nat × Polled UInt8 ReadError)
  | .read reader room error =>
      if s.upload.reads reader room then some (reader, room, (s.pollRead reader room error).1)
      else none
  | _ => none

def step (s : Receiving) : Label → Option Receiving
  | .read reader room error =>
      if s.upload.reads reader room then
        let (polled, t) := s.pollRead reader room error
        some { t with
          upload := s.upload.returned polled reader
          coming_of_fin := t.coming_of_fin }
      else none
  | .receive n fin =>
      if hfin : fin = true → s.coming.drop n = [] then
        match h : s.recv.receive (s.coming.take n) fin with
        | some recv => some { s with
            recv := recv
            coming := s.coming.drop n
            coming_of_fin := fun hrecv => hfin ((RecvSide.receive_eq_some h).2.1 ▸ hrecv) }
        | none => none
      else none
  | .close => some { s with closed := true, coming_of_fin := s.coming_of_fin }
  | .spawn =>
      -- by the task of the stream, before it ends
      if s.accepted && !s.upload.again then
        s.upload.spawn.map fun upload =>
          { s with upload := upload, coming_of_fin := s.coming_of_fin }
      else none
  | .elapse => (s.upload.elapse ReadError).map fun upload =>
      { s with upload := upload, coming_of_fin := s.coming_of_fin }
  | .stop => (s.upload.stop (!s.closed)).map fun upload =>
      if s.closed then { s with upload := upload, coming_of_fin := s.coming_of_fin }
      else { s with recv := s.recv.stop, upload := upload, coming_of_fin := s.coming_of_fin }
  | .release =>
      if s.accepted then some { s with accepted := false, coming_of_fin := s.coming_of_fin }
      else none
  | .accept =>
      if !s.accepted && !s.closed && s.recv.readable then
        some { s with
          accepted := true
          upload := s.upload.accept
          coming_of_fin := s.coming_of_fin }
      else none
  | .cut => (s.upload.cut (!s.closed)).map fun upload =>
      if s.closed then { s with upload := upload, coming_of_fin := s.coming_of_fin }
      else { s with recv := s.recv.stop, upload := upload, coming_of_fin := s.coming_of_fin }

/-- As long as the connection is there and quiche has no error for them, the handler's reads with
room for a byte follow what the handler has read. -/
def ReadsClear (body : List UInt8) (s : Receiving) : Label → Prop
  | .read .handler room error =>
      0 < room → s.closed = false → (s.readEof .handler = true ∨ error = none) →
        s.upload.IsClear body
  | _ => True

/-! ## What a read does -/

variable {s t : Receiving}

/-- Everything `poll_read` can do. -/
theorem pollRead_cases (reader : BodyReader) (room : Nat) (error : Option String) (s : Receiving) :
    (∃ e, s.pollRead reader room error = (.ready (.error e), s)) ∨
    s.closed = false ∧ (s.readEof reader = true ∨ error = none) ∧
      (s.readEof reader = true ∧ s.pollRead reader room error = (.atEnd, s) ∨
        s.recv.readable = true ∧ s.pollRead reader room error =
          (.ready (.ok (s.recv.unread.take room)), { s with
            recv := s.recv.recv room
            readEof := update s.readEof reader (s.recv.recv room).finRead
            coming_of_fin := s.coming_of_fin }) ∨
        s.pollRead reader room error = (.pending, s)) := by
  unfold pollRead
  cases hclosed : s.closed with
  | true => exact .inl ⟨.closed, rfl⟩
  | false =>
      cases heof : s.readEof reader with
      | true => exact .inr ⟨rfl, .inl rfl, .inl ⟨rfl, rfl⟩⟩
      | false =>
          cases error with
          | some message => exact .inl ⟨.stream message, rfl⟩
          | none =>
              refine .inr ⟨rfl, .inr rfl, .inr ?_⟩
              cases hreadable : s.recv.readable with
              | true => exact .inl ⟨rfl, rfl⟩
              | false => exact .inr rfl

theorem rest_of_finRead (h : s.recv.finRead = true) : s.rest = [] := by
  rw [rest, s.recv.unread_of_finRead h, s.coming_of_fin (s.recv.fin_of_finRead h)]
  split <;> rfl

/-- A readable side is open, and holds bytes or the FIN. -/
theorem open_of_readable (h : s.recv.readable = true) :
    s.recv.stopped = false ∧ (s.recv.unread = [] → s.recv.fin = true) := by
  obtain ⟨hopen, hsome⟩ := Bool.and_eq_true_iff.mp h
  refine ⟨by simpa using hopen, fun hunread => ?_⟩
  rw [hunread] at hsome
  exact (Bool.and_eq_true_iff.mp hsome).1

/-- What was read and what is to come. -/
theorem rest_pollRead (reader : BodyReader) (room : Nat) (error : Option String) (s : Receiving) :
    (s.pollRead reader room error).1.bytes ++ (s.pollRead reader room error).2.rest = s.rest := by
  rcases pollRead_cases reader room error s with ⟨e, heq⟩ | ⟨_, _, ⟨_, heq⟩ | ⟨hreadable, heq⟩ | heq⟩
  · rw [heq]
    rfl
  · rw [heq]
    rfl
  · have hopen := (open_of_readable hreadable).1
    rw [heq]
    show s.recv.unread.take room ++
      (if s.recv.stopped then [] else s.recv.unread.drop room ++ s.coming) = s.rest
    rw [rest, hopen]
    show s.recv.unread.take room ++ (s.recv.unread.drop room ++ s.coming) = s.recv.unread ++ s.coming
    rw [← List.append_assoc, List.take_append_drop]
  · rw [heq]
    rfl

/-- At the end nothing is to come. -/
theorem rest_of_atEnd {reader : BodyReader} {room : Nat} {error : Option String}
    (heof : s.readEof reader = true → s.recv.finRead = true) (hroom : 0 < room)
    (h : (s.pollRead reader room error).1 = .atEnd) : s.rest = [] := by
  rcases pollRead_cases reader room error s with
    ⟨e, heq⟩ | ⟨_, _, ⟨hread, _⟩ | ⟨hreadable, heq⟩ | heq⟩
  · rw [heq] at h
    cases h
  · exact rest_of_finRead (heof hread)
  · rw [heq] at h
    have htake : s.recv.unread.take room = [] := Except.ok.inj (Polled.ready.inj h)
    have hunread : s.recv.unread = [] := by
      rcases List.take_eq_nil_iff.mp htake with hzero | hnil
      · omega
      · exact hnil
    rw [rest, hunread, s.coming_of_fin ((open_of_readable hreadable).2 hunread)]
    split <;> rfl
  · rw [heq] at h
    cases h

/-! ## The invariant -/

/-- What has been read is a division of the body, and a clone that is at the end has read the
FIN. -/
structure Inv (body : List UInt8) (s : Receiving) : Prop where
  divided : s.upload.IsDivided body s.rest
  stopped_eq : s.recv.stopped = s.upload.stopped
  finRead_of_readEof : ∀ reader, s.readEof reader = true → s.recv.finRead = true

theorem inv_start {recv : RecvSide} {coming : List UInt8} {h : recv.fin = true → coming = []}
    (hopen : recv.stopped = false) :
    Inv (start recv coming h).rest (start recv coming h) where
  divided := divided_start _
  stopped_eq := hopen
  finRead_of_readEof reader hread := by
    cases reader with
    | handler | drain => exact hread
    | server => cases hread

section

variable {body : List UInt8}

/-- The handler's reads with room that find no error miss nothing. -/
theorem clear_of_readsClear {room : Nat} {error : Option String}
    (hC : s.ReadsClear body (.read .handler room error)) :
    (∃ e, s.pollRead .handler room error = (.ready (.error e), s)) ∨ room = 0 ∨
      s.upload.IsClear body := by
  rcases pollRead_cases .handler room error s with hfails | ⟨hopen, hfine, _⟩
  · exact .inl hfails
  · rcases Nat.eq_zero_or_pos room with hzero | hroom
    · exact .inr (.inl hzero)
    · exact .inr (.inr (hC hroom hopen hfine))

theorem answers_pollRead (hinv : Inv body s) {room : Nat} {error : Option String}
    (hC : s.ReadsClear body (.read .handler room error)) (hroom : 0 < room) :
    Answers body s.upload.received s.rest (s.pollRead .handler room error).1 := by
  rcases clear_of_readsClear hC with ⟨e, heq⟩ | rfl | hclear
  · rw [heq]
    exact answers_error hinv.divided.begins e
  · exact absurd hroom (Nat.lt_irrefl 0)
  · have hall := Divided.append_eq hinv.divided hclear
    have hanswers := answers_of_append_eq hall (rest_pollRead .handler room error s)
      (rest_of_atEnd (hinv.finRead_of_readEof .handler) hroom)
    exact ⟨hanswers.begins, hanswers.complete, fun _ => hall⟩

/-- A clone that has read to the end has read the FIN. -/
theorem finRead_pollRead (hinv : Inv body s) (reader : BodyReader) (room : Nat)
    (error : Option String) (other : BodyReader)
    (h : (s.pollRead reader room error).2.readEof other = true) :
    (s.pollRead reader room error).2.recv.finRead = true := by
  rcases pollRead_cases reader room error s with
    ⟨e, heq⟩ | ⟨_, _, ⟨_, heq⟩ | ⟨_, heq⟩ | heq⟩ <;> rw [heq] at h ⊢
  · exact hinv.finRead_of_readEof other h
  · exact hinv.finRead_of_readEof other h
  · by_cases hother : other = reader
    · subst hother
      exact (Function.update_self other _ s.readEof).symm.trans h
    · have hread : s.readEof other = true :=
        (Function.update_of_ne hother _ s.readEof).symm.trans h
      exact Bool.or_eq_true_iff.mpr (.inl (hinv.finRead_of_readEof other hread))
  · exact hinv.finRead_of_readEof other h

theorem stopped_pollRead (reader : BodyReader) (room : Nat) (error : Option String)
    (s : Receiving) : (s.pollRead reader room error).2.recv.stopped = s.recv.stopped := by
  rcases pollRead_cases reader room error s with
    ⟨e, heq⟩ | ⟨_, _, ⟨_, heq⟩ | ⟨_, heq⟩ | heq⟩
  all_goals exact congrArg (fun out => out.2.recv.stopped) heq

theorem bytes_pollRead_zero (reader : BodyReader) (error : Option String) (s : Receiving) :
    (s.pollRead reader 0 error).1.bytes = [] := by
  rcases pollRead_cases reader 0 error s with
    ⟨e, heq⟩ | ⟨_, _, ⟨_, heq⟩ | ⟨_, heq⟩ | heq⟩
  all_goals exact congrArg (fun out => out.1.bytes) heq

theorem inv_read (hinv : Inv body s) {reader : BodyReader} {room : Nat} {error : Option String}
    (hC : s.ReadsClear body (.read reader room error)) :
    Inv body { (s.pollRead reader room error).2 with
      upload := s.upload.returned (s.pollRead reader room error).1 reader
      coming_of_fin := (s.pollRead reader room error).2.coming_of_fin } := by
  refine ⟨?_, ?_, finRead_pollRead hinv reader room error⟩
  · refine Upload.isDivided_returned.mpr ?_
    refine hinv.divided.add (rest_pollRead reader room error s) ?_
    rintro rfl
    rcases clear_of_readsClear hC with ⟨e, heq⟩ | rfl | hclear
    · rw [heq]
      exact .inr rfl
    · exact .inr (bytes_pollRead_zero .handler error s)
    · exact .inl (Divided.append_eq hinv.divided hclear)
  · show _ = (s.upload.returned _ reader).stopped
    rw [Upload.stopped_returned]
    exact (stopped_pollRead reader room error s).trans hinv.stopped_eq

theorem inv_receive (hinv : Inv body s) {n : Nat} {fin : Bool}
    (h : s.step (.receive n fin) = some t) : Inv body t := by
  rw [step] at h
  split at h
  · next hfin =>
    split at h
    · next recv hrecv =>
      cases h
      obtain ⟨hopen, -, hstopped, hunread⟩ := RecvSide.receive_eq_some hrecv
      have hrest : (if recv.stopped then [] else recv.unread ++ s.coming.drop n) = s.rest := by
        rw [rest, hstopped, hunread]
        cases s.recv.stopped with
        | true => rfl
        | false =>
            show (s.recv.unread ++ s.coming.take n) ++ s.coming.drop n = s.recv.unread ++ s.coming
            rw [List.append_assoc, List.take_append_drop]
      refine ⟨?_, hstopped.trans hinv.stopped_eq, fun reader hread => ?_⟩
      · show s.upload.IsDivided body (if recv.stopped then [] else recv.unread ++ s.coming.drop n)
        rw [hrest]
        exact hinv.divided
      · have hfin := s.recv.fin_of_finRead (hinv.finRead_of_readEof reader hread)
        rw [hopen] at hfin
        cases hfin
    · cases h
  · cases h

theorem Inv.keeps (hinv : Inv body s) {upload : Upload} (hkeeps : s.upload.Keeps upload) :
    Inv body { s with upload := upload, coming_of_fin := s.coming_of_fin } :=
  ⟨hkeeps.isDivided hinv.divided, hinv.stopped_eq.trans hkeeps.2.2.symm, hinv.finRead_of_readEof⟩

/-- A `stop_read`, by whomever. -/
theorem Inv.stop (hinv : Inv body s) {upload : Upload}
    (hkeeps : s.closed = true → s.upload.Keeps upload)
    (hstops : s.closed = false → upload.IsDivided body [] ∧ upload.stopped = true) :
    Inv body (if s.closed then { s with upload := upload, coming_of_fin := s.coming_of_fin }
      else { s with recv := s.recv.stop, upload := upload, coming_of_fin := s.coming_of_fin }) := by
  split
  · next hclosed => exact hinv.keeps (hkeeps hclosed)
  · next hclosed =>
      obtain ⟨hdivided, hstopped⟩ := hstops (Bool.eq_false_iff.mpr hclosed)
      exact ⟨hdivided, hstopped.symm, hinv.finRead_of_readEof⟩

theorem inv_stop (hinv : Inv body s) (h : s.step .stop = some t) : Inv body t := by
  obtain ⟨upload, hstop, rfl⟩ := Option.map_eq_some_iff.mp h
  refine hinv.stop ?_ ?_
  · intro hclosed
    rw [hclosed] at hstop
    exact Upload.keeps_stop hstop
  · intro hclosed
    rw [hclosed] at hstop
    exact hinv.divided.stop hstop

theorem inv_cut (hinv : Inv body s) (h : s.step .cut = some t) : Inv body t := by
  obtain ⟨upload, hcut, rfl⟩ := Option.map_eq_some_iff.mp h
  refine hinv.stop ?_ ?_
  · intro hclosed
    rw [hclosed] at hcut
    exact Upload.keeps_cut hcut
  · intro hclosed
    rw [hclosed] at hcut
    exact hinv.divided.cut hcut

theorem inv_step {l : Label} (hinv : Inv body s) (hC : s.ReadsClear body l)
    (h : s.step l = some t) : Inv body t := by
  cases l with
  | read reader room error =>
      obtain ⟨_, ⟨⟩⟩ := Option.ite_none_right_eq_some.mp h
      exact inv_read hinv hC
  | receive n fin => exact inv_receive hinv h
  | close =>
      cases h
      exact ⟨hinv.divided, hinv.stopped_eq, hinv.finRead_of_readEof⟩
  | spawn =>
      obtain ⟨-, hsome⟩ := Option.ite_none_right_eq_some.mp h
      obtain ⟨upload, hspawn, rfl⟩ := Option.map_eq_some_iff.mp hsome
      exact hinv.keeps (Upload.keeps_spawn hspawn)
  | elapse =>
      obtain ⟨upload, helapse, rfl⟩ := Option.map_eq_some_iff.mp h
      exact hinv.keeps (Upload.keeps_elapse helapse)
  | stop => exact inv_stop hinv h
  | release =>
      obtain ⟨-, ⟨⟩⟩ := Option.ite_none_right_eq_some.mp h
      exact ⟨hinv.divided, hinv.stopped_eq, hinv.finRead_of_readEof⟩
  | accept =>
      obtain ⟨-, ⟨⟩⟩ := Option.ite_none_right_eq_some.mp h
      exact ⟨(Upload.keeps_accept s.upload).isDivided hinv.divided, hinv.stopped_eq,
        hinv.finRead_of_readEof⟩
  | cut => exact inv_cut hinv h

theorem told_of_inv {l : Label} (hinv : Inv body s) (hC : s.ReadsClear body l) :
    Upload.Told Receiving.upload rest returns body s l := by
  intro room polled hreturns hroom
  cases l with
  | read reader room' error =>
      obtain ⟨_, ⟨⟩⟩ := Option.ite_none_right_eq_some.mp hreturns
      exact answers_pollRead hinv hC hroom
  | _ => cases hreturns

/-- **An upload over quiche.** As long as the handler's reads with room follow what the handler has
read, it reads a beginning of the body, and is told the truth of the end. -/
theorem sound_of_readsClear {recv : RecvSide} {coming : List UInt8}
    (hcoming : recv.fin = true → coming = []) (hopen : recv.stopped = false) {ls : List Label}
    (hC : Always step (ReadsClear (recv.unread ++ coming)) (start recv coming hcoming) ls) :
    Upload.Sound step Receiving.upload rest returns (recv.unread ++ coming)
      (start recv coming hcoming) ls := by
  have hrest : (start recv coming hcoming).rest = recv.unread ++ coming :=
    if_neg (by rw [start, hopen]; exact Bool.false_ne_true)
  have hinv := @inv_start recv coming hcoming hopen
  rw [hrest] at hinv
  exact Upload.sound_of_always (Inv (recv.unread ++ coming)) (fun _ hs => hs.divided.begins)
    (fun _ _ => told_of_inv) (fun _ _ _ => inv_step) hinv hC

end

end Receiving

end Libcfd.Edge.Quic.Quiche
