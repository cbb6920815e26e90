import Libcfd.Edge.Quic.Quinn
import Libcfd.Edge.Serve.Upload

/-!
# The quinn backend: an upload read by two clones

The handler's clone and the drain's share one receive half. A read that begins while the other
clone has the half is at its end; one that finds it reads on where the other has stopped reading.
No stream is handed out twice.
-/

namespace Libcfd.Edge.Quic.Quinn

open Libcfd.Machine Libcfd.Reader Libcfd.Edge.Serve

open Function (update)

/-- A read returns no more than there is room for. -/
def Crate.Fits (Q : Crate) : Prop :=
  ∀ room halves, (Q.pollRead room halves).1.bytes.length ≤ room

/-- The number of a reader's clone. -/
def number : BodyReader → Nat
  | .handler => 0
  | .drain => 1
  | .server clone => clone + 2

theorem number_inj {reader other : BodyReader} (h : number reader = number other) :
    reader = other := by
  cases reader <;> cases other <;> simp [number] at h ⊢
  exact h

/-- A stream whose request body is being read. -/
structure Receiving (Q : Crate) where
  clones : Clones Q
  upload : Upload

namespace Receiving

variable {Q : Crate}

inductive Label (Q : Crate) where
  -- the three steps of a read
  | take (reader : BodyReader) (room : Nat)
  | poll (reader : BodyReader)
  | restore (reader : BodyReader)
  | packet (packet : Q.Packet)
  -- the steps of `drain_unread` besides its reads
  | spawn
  | elapse
  | stop

/-- Both halves are there. -/
def start (halves : Q.Halves) : Receiving Q := ⟨.start halves fun _ => true, .start⟩

/-- The body, as far as it is still to come. -/
def rest (s : Receiving Q) : List UInt8 := Q.rest s.clones.halves

/-- What a read returns in this step, if one does. -/
def returns (s : Receiving Q) : Label Q → Option (BodyReader × Nat × Polled UInt8 Fault)
  | .take reader room =>
      match s.clones.returns (.take (number reader) (.read room)) with
      | some (.read polled) => some (reader, room, polled)
      | _ => none
  | .restore reader =>
      match s.clones.call (number reader) with
      | .polled (.read room) (.read polled) => some (reader, room, polled)
      | _ => none
  | _ => none

/-- The upload after what is returned in this step. -/
def after (s : Receiving Q) (l : Label Q) : Upload :=
  match s.returns l with
  | some (reader, _, polled) => s.upload.returned polled reader
  | none => s.upload

def step (s : Receiving Q) : Label Q → Option (Receiving Q)
  | .take reader room =>
      if s.upload.reads reader room then
        (s.clones.step (.take (number reader) (.read room))).map fun clones =>
          ⟨clones, s.after (.take reader room)⟩
      else none
  | .poll reader =>
      (s.clones.step (.poll (number reader))).map fun clones => { s with clones := clones }
  | .restore reader =>
      (s.clones.step (.restore (number reader))).map fun clones =>
        ⟨clones, s.after (.restore reader)⟩
  | .packet packet => (s.clones.step (.packet packet)).map fun clones => { s with clones := clones }
  | .spawn => s.upload.spawn.map fun upload => { s with upload := upload }
  | .elapse =>
      -- the timeout is looked at between two polls
      match s.clones.call (number .drain) with
      | .idle => (s.upload.elapse Fault).map fun upload => { s with upload := upload }
      | _ => none
  | .stop =>
      (s.clones.step (.command (number .drain) .stopRead)).bind fun clones =>
        (s.upload.stop (decide (s.clones.place .recv = .shared))).map fun upload =>
          ⟨clones, upload⟩

/-- The handler's reads with room for a byte find the half, and what they find there follows what
the handler has read, or quinn has an error for them. -/
def ReadsClear (body : List UInt8) (s : Receiving Q) : Label Q → Prop
  | .take .handler room =>
      0 < room → s.clones.place .recv = .shared ∨ s.upload.received = body
  | .poll .handler =>
      ∀ room, s.clones.call (number .handler) = .taken (.read room) → 0 < room →
        s.upload.IsClear body ∨
          ∃ error, (Q.pollRead room s.clones.halves).1 = .ready (.error error)
  | _ => True

/-! ## What holds between the steps of a read -/

end Receiving

/-- The bytes a poll is going to return. -/
def Call.hand : Call → List UInt8
  | .polled _ (.read result) => result.bytes
  | _ => []

/-- The poll is a read. -/
def Call.IsRead : Call → Prop
  | .idle => True
  | .taken p => ∃ room, p = .read room
  | .polled p result => ∃ room polled, p = .read room ∧ result = .read polled

namespace Receiving

variable {Q : Crate} {s t : Receiving Q}

def call (s : Receiving Q) (reader : BodyReader) : Call := s.clones.call (number reader)

/-- Whoever is in a read has the half, and what the two have read and are going to return is a
division of the body. -/
structure Inv (body : List UInt8) (s : Receiving Q) : Prop where
  reads : ∀ reader, (s.call reader).IsRead
  holds : ∀ reader, s.call reader ≠ .idle → s.clones.place .recv = .taken (number reader)
  divided : ∀ reader, (∀ other, other ≠ reader → s.call other = .idle) →
    (s.upload.add (s.call reader).hand reader).IsDivided body s.rest
  open_of_not_stopped : s.upload.stopped = false → Q.isStopped s.clones.halves = false
  answers : ∀ room polled, s.call .handler = .polled (.read room) (.read polled) → 0 < room →
    Answers body s.upload.received s.rest polled

theorem inv_start {halves : Q.Halves} (hopen : Q.isStopped halves = false) :
    Inv (Q.rest halves) (start halves) where
  reads _ := trivial
  holds _ h := absurd rfl h
  divided reader _ := by
    show (Upload.start.add [] reader).IsDivided (Q.rest halves) (Q.rest halves)
    rw [Upload.add_nil]
    exact divided_start (Q.rest halves)
  open_of_not_stopped _ := hopen
  answers := nofun

/-- A reader goes on with its read. -/
def put (s : Receiving Q) (halves : Q.Halves) (place : Place) (reader : BodyReader) (c : Call)
    (upload : Upload) : Receiving Q where
  clones := {
    halves := halves
    place := update s.clones.place .recv place
    call := update s.clones.call (number reader) c }
  upload := upload

theorem call_put {halves : Q.Halves} {place : Place} {reader : BodyReader} {c : Call}
    {upload : Upload} (other : BodyReader) :
    (s.put halves place reader c upload).call other =
      if other = reader then c else s.call other := by
  show update s.clones.call (number reader) c (number other) = _
  by_cases h : other = reader
  · rw [h, Function.update_self, if_pos rfl]
  · rw [Function.update_of_ne fun hnumber => h (number_inj hnumber), if_neg h]
    rfl

theorem place_put {halves : Q.Halves} {place : Place} {reader : BodyReader} {c : Call}
    {upload : Upload} : (s.put halves place reader c upload).clones.place .recv = place := by
  show update s.clones.place .recv place .recv = place
  exact Function.update_self ..

/-- Everything a step can do. -/
inductive Steps (s : Receiving Q) : Label Q → Receiving Q → Prop
  | takes {reader : BodyReader} {room : Nat} (hshared : s.clones.place .recv = .shared) :
      Steps s (.take reader room)
        (s.put s.clones.halves (.taken (number reader)) reader (.taken (.read room)) s.upload)
  | misses {reader : BodyReader} {room : Nat} (haway : s.clones.place .recv ≠ .shared) :
      Steps s (.take reader room)
        ⟨s.clones, s.upload.returned (.atEnd : Polled UInt8 Fault) reader⟩
  | polls {reader : BodyReader} {room : Nat} (htaken : s.call reader = .taken (.read room)) :
      Steps s (.poll reader)
        (s.put (Q.pollRead room s.clones.halves).2 (s.clones.place .recv) reader
          (.polled (.read room) (.read (Q.pollRead room s.clones.halves).1)) s.upload)
  | restores {reader : BodyReader} {room : Nat} {polled : Polled UInt8 Fault}
      (hpolled : s.call reader = .polled (.read room) (.read polled)) :
      Steps s (.restore reader)
        (s.put s.clones.halves .shared reader .idle (s.upload.returned polled reader))
  | packets (packet : Q.Packet) : Steps s (.packet packet)
      { s with clones := { s.clones with halves := Q.packet packet s.clones.halves } }
  | drains {l : Label Q} {upload : Upload} (hkeeps : s.upload.Keeps upload) :
      Steps s l { s with upload := upload }
  | stops {upload : Upload} (hshared : s.clones.place .recv = .shared)
      (hstop : s.upload.stop true = some upload) :
      Steps s .stop
        ⟨{ s.clones with halves := Q.command .stopRead s.clones.halves }, upload⟩

theorem returns_take {reader : BodyReader} {room : Nat} (hidle : s.call reader = .idle) :
    s.returns (.take reader room) =
      if s.clones.place .recv = .shared then none else some (reader, room, .atEnd) := by
  rw [call] at hidle
  rw [returns, Clones.returns, hidle]
  show (match (if s.clones.place .recv = .shared then none
    else some (Result.read .atEnd) : Option Result) with
    | some (.read polled) => some (reader, room, polled)
    | _ => none) = _
  split_ifs <;> rfl

theorem returns_restore {reader : BodyReader} {room : Nat} {polled : Polled UInt8 Fault}
    (hpolled : s.call reader = .polled (.read room) (.read polled)) :
    s.returns (.restore reader) = some (reader, room, polled) := by
  rw [call] at hpolled
  rw [returns, hpolled]

theorem steps_of_step {l : Label Q} (hreads : ∀ reader, (s.call reader).IsRead)
    (h : s.step l = some t) : Steps s l t := by
  cases l with
  | take reader room =>
      obtain ⟨_, hstep⟩ := Option.ite_none_right_eq_some.mp h
      obtain ⟨clones, hclones, rfl⟩ := Option.map_eq_some_iff.mp hstep
      cases Clones.steps_of_step hclones with
      | takes hidle hshared =>
          have hshared : s.clones.place .recv = .shared := hshared
          have hafter : s.after (.take reader room) = s.upload := by
            rw [after, returns_take hidle, if_pos hshared]
          rw [hafter]
          exact .takes hshared
      | unavailable hidle haway =>
          have haway : s.clones.place .recv ≠ .shared := haway
          have hafter : s.after (.take reader room) =
              s.upload.returned (.atEnd : Polled UInt8 Fault) reader := by
            rw [after, returns_take hidle, if_neg haway]
          rw [hafter]
          exact .misses haway
  | poll reader =>
      obtain ⟨clones, hclones, rfl⟩ := Option.map_eq_some_iff.mp h
      cases Clones.steps_of_step hclones with
      | @polls _ p htaken =>
          have htaken : s.call reader = .taken p := htaken
          have hread := hreads reader
          rw [htaken] at hread
          obtain ⟨room, rfl⟩ := hread
          have hpolls := Steps.polls htaken
          rw [put, Function.update_eq_self] at hpolls
          exact hpolls
  | restore reader =>
      obtain ⟨clones, hclones, rfl⟩ := Option.map_eq_some_iff.mp h
      cases Clones.steps_of_step hclones with
      | @restores _ p result hpolled =>
          have hpolled : s.call reader = .polled p result := hpolled
          have hread := hreads reader
          rw [hpolled] at hread
          obtain ⟨room, polled, rfl, rfl⟩ := hread
          have hafter : s.after (.restore reader) = s.upload.returned polled reader := by
            rw [after, returns_restore hpolled]
          rw [hafter]
          exact .restores hpolled
  | packet packet =>
      cases h
      exact .packets packet
  | spawn =>
      obtain ⟨upload, hspawn, rfl⟩ := Option.map_eq_some_iff.mp h
      exact .drains (Upload.keeps_spawn hspawn)
  | elapse =>
      rw [step] at h
      split at h
      · obtain ⟨upload, helapse, rfl⟩ := Option.map_eq_some_iff.mp h
        exact .drains (Upload.keeps_elapse helapse)
      · cases h
  | stop =>
      obtain ⟨clones, hclones, hrest⟩ := Option.bind_eq_some_iff.mp h
      obtain ⟨upload, hstop, rfl⟩ := Option.map_eq_some_iff.mp hrest
      cases Clones.steps_of_step hclones with
      | commands hidle hshared =>
          have hshared : s.clones.place .recv = .shared := hshared
          rw [decide_eq_true hshared] at hstop
          exact .stops hshared hstop
      | ignored hidle haway =>
          have haway : s.clones.place .recv ≠ .shared := haway
          rw [decide_eq_false haway] at hstop
          exact .drains (Upload.keeps_stop hstop)

/-! ## One lemma for each step -/

section

variable {body : List UInt8}

/-- Only one reader is in a read. -/
theorem Inv.idle_of_ne (hinv : Inv body s) {reader other : BodyReader}
    (hcall : s.call reader ≠ .idle) (hne : other ≠ reader) : s.call other = .idle := by
  cases hother : s.call other with
  | idle => rfl
  | _ =>
      have htaken := hinv.holds other (by rw [hother]; nofun)
      rw [hinv.holds reader hcall] at htaken
      exact absurd (number_inj (Place.taken.inj htaken)).symm hne

theorem Inv.idle_of_shared (hinv : Inv body s) (hshared : s.clones.place .recv = .shared)
    (reader : BodyReader) : s.call reader = .idle := by
  cases hcall : s.call reader with
  | idle => rfl
  | _ =>
      have htaken := hinv.holds reader (by rw [hcall]; nofun)
      rw [hshared] at htaken
      cases htaken

/-- What has been read is a division of the body where nobody is in a read. -/
theorem Inv.divided_of_idle (hinv : Inv body s) (hidle : ∀ reader, s.call reader = .idle) :
    s.upload.IsDivided body s.rest := by
  have hdivided := hinv.divided .handler fun other _ => hidle other
  rw [hidle, Call.hand, Upload.add_nil] at hdivided
  · exact hdivided
  · nofun

/-- The reader that goes on with its read is the only one in a read. -/
theorem Inv.put (hinv : Inv body s) {halves : Q.Halves} {place : Place} {reader : BodyReader}
    {c : Call} {upload : Upload} (hidle : ∀ other, other ≠ reader → s.call other = .idle)
    (hread : c.IsRead) (hplace : c ≠ .idle → place = .taken (number reader))
    (hdivided : (upload.add c.hand reader).IsDivided body (Q.rest halves))
    (hopen : upload.stopped = false → Q.isStopped halves = false)
    (hanswers : reader = .handler → ∀ room polled, c = .polled (.read room) (.read polled) →
      0 < room → Answers body upload.received (Q.rest halves) polled) :
    Inv body (s.put halves place reader c upload) := by
  constructor
  · intro other
    rw [call_put]
    split
    · exact hread
    · exact hinv.reads other
  · intro other hother
    rw [call_put] at hother
    rw [place_put]
    split at hother
    · next heq =>
      rw [heq]
      exact hplace hother
    · next hne => exact absurd (hidle other hne) hother
  · intro other hothers
    by_cases heq : other = reader
    · rw [call_put, if_pos heq, heq]
      exact hdivided
    · have hc : c = .idle := by
        have hreader := hothers reader fun h => heq h.symm
        rw [call_put, if_pos rfl] at hreader
        exact hreader
      have hnothing : Call.idle.hand = [] := rfl
      rw [call_put, if_neg heq, hidle other heq, hnothing, Upload.add_nil]
      rw [hc, hnothing, Upload.add_nil] at hdivided
      exact hdivided
  · exact hopen
  · intro room polled hpolled
    rw [call_put] at hpolled
    split at hpolled
    · next heq => exact hanswers heq.symm room polled hpolled
    · next hne =>
      rw [hidle .handler hne] at hpolled
      cases hpolled

theorem inv_takes (hinv : Inv body s) {reader : BodyReader} {room : Nat}
    (hshared : s.clones.place .recv = .shared) :
    Inv body (s.put s.clones.halves (.taken (number reader)) reader (.taken (.read room))
      s.upload) := by
  have hidle := hinv.idle_of_shared hshared
  refine hinv.put (fun other _ => hidle other) ⟨room, rfl⟩ (fun _ => rfl) ?_
    hinv.open_of_not_stopped nofun
  show (s.upload.add [] reader).IsDivided body s.rest
  rw [Upload.add_nil]
  exact hinv.divided_of_idle hidle

theorem inv_polls (hQ : Q.Lawful) (hfits : Q.Fits) (hinv : Inv body s) {reader : BodyReader}
    {room : Nat} (htaken : s.call reader = .taken (.read room))
    (hC : s.ReadsClear body (.poll reader)) :
    Inv body (s.put (Q.pollRead room s.clones.halves).2 (s.clones.place .recv) reader
      (.polled (.read room) (.read (Q.pollRead room s.clones.halves).1)) s.upload) := by
  have hactive : s.call reader ≠ .idle := by
    rw [htaken]
    nofun
  have hidle : ∀ other, other ≠ reader → s.call other = .idle :=
    fun other => hinv.idle_of_ne hactive
  have hdivided : s.upload.IsDivided body s.rest := by
    have h := hinv.divided reader hidle
    rw [htaken] at h
    exact (Upload.add_nil s.upload reader) ▸ h
  have hpays := hQ.rest_pollRead room s.clones.halves
  -- a read of the handler fails, or has no room, or misses nothing
  have hcases : reader = .handler →
      (∃ error, (Q.pollRead room s.clones.halves).1 = .ready (.error error)) ∨ room = 0 ∨
        s.upload.IsClear body := by
    rintro rfl
    rcases Nat.eq_zero_or_pos room with hzero | hroom
    · exact .inr (.inl hzero)
    · rcases hC room htaken hroom with hclear | hfails
      · exact .inr (.inr hclear)
      · exact .inl hfails
  refine hinv.put hidle ⟨room, _, rfl, rfl⟩ (fun _ => hinv.holds reader hactive) ?_ ?_ ?_
  · refine hdivided.add hpays fun hhandler => ?_
    rcases hcases hhandler with ⟨error, hfails⟩ | rfl | hclear
    · right
      show (Q.pollRead room s.clones.halves).1.bytes = []
      rw [hfails]
      rfl
    · exact .inr (List.eq_nil_of_length_eq_zero (Nat.le_zero.mp (hfits 0 s.clones.halves)))
    · exact .inl (Divided.append_eq hdivided hclear)
  · intro hopen
    rw [hQ.isStopped_pollRead]
    exact hinv.open_of_not_stopped hopen
  · rintro hhandler room' polled ⟨⟩ hroom
    rcases hcases hhandler with ⟨error, hfails⟩ | rfl | hclear
    · rw [hfails]
      exact answers_error hdivided.begins error
    · exact absurd hroom (Nat.lt_irrefl 0)
    · refine answers_of_append_eq (Divided.append_eq hdivided hclear) hpays fun hatEnd => ?_
      rcases hclear with hall | ⟨_, hopen⟩
      · exact Divided.rest_eq_nil hdivided hall
      · exact hQ.rest_of_atEnd room s.clones.halves hroom (hinv.open_of_not_stopped hopen) hatEnd

theorem inv_restores (hinv : Inv body s) {reader : BodyReader} {room : Nat}
    {polled : Polled UInt8 Fault} (hpolled : s.call reader = .polled (.read room) (.read polled)) :
    Inv body (s.put s.clones.halves .shared reader .idle (s.upload.returned polled reader)) := by
  have hactive : s.call reader ≠ .idle := by
    rw [hpolled]
    nofun
  have hidle : ∀ other, other ≠ reader → s.call other = .idle :=
    fun other => hinv.idle_of_ne hactive
  refine hinv.put hidle trivial (fun h => absurd rfl h) ?_ ?_ nofun
  · show ((s.upload.returned polled reader).add [] reader).IsDivided body s.rest
    rw [Upload.add_nil, Upload.isDivided_returned]
    have h := hinv.divided reader hidle
    rw [hpolled] at h
    exact h
  · rw [Upload.stopped_returned]
    exact hinv.open_of_not_stopped

/-- What the drain does besides reading leaves a division of the body as it is. -/
theorem Inv.keeps (hinv : Inv body s) {upload : Upload} (hkeeps : s.upload.Keeps upload) :
    Inv body { s with upload := upload } where
  reads := hinv.reads
  holds := hinv.holds
  divided reader hidle := hkeeps.add.isDivided (hinv.divided reader hidle)
  open_of_not_stopped hopen := hinv.open_of_not_stopped (hkeeps.2.2 ▸ hopen)
  answers room polled hpolled hroom := by
    rw [hkeeps.1]
    exact hinv.answers room polled hpolled hroom

theorem inv_packets (hQ : Q.Lawful) (hinv : Inv body s) (packet : Q.Packet) :
    Inv body { s with clones := { s.clones with halves := Q.packet packet s.clones.halves } } := by
  refine ⟨hinv.reads, hinv.holds, fun reader hidle => ?_, fun hopen => ?_,
    fun room polled hpolled hroom => ?_⟩
  · rw [rest, hQ.rest_packet]
    exact hinv.divided reader hidle
  · rw [hQ.isStopped_packet]
    exact hinv.open_of_not_stopped hopen
  · rw [rest, hQ.rest_packet]
    exact hinv.answers room polled hpolled hroom

theorem inv_stops (hQ : Q.Lawful) (hinv : Inv body s) {upload : Upload}
    (hshared : s.clones.place .recv = .shared) (hstop : s.upload.stop true = some upload) :
    Inv body ⟨{ s.clones with halves := Q.command .stopRead s.clones.halves }, upload⟩ := by
  have hidle := hinv.idle_of_shared hshared
  obtain ⟨hdivided, hstopped⟩ := (hinv.divided_of_idle hidle).stop hstop
  refine ⟨hinv.reads, hinv.holds, fun reader _ => ?_, fun hopen => ?_,
    fun room polled hpolled _ => ?_⟩
  · have hnothing : (s.call reader).hand = [] := by
      rw [hidle]
      rfl
    show (upload.add (s.call reader).hand reader).IsDivided body
      (Q.rest (Q.command .stopRead s.clones.halves))
    rw [hnothing, Upload.add_nil, hQ.rest_stopRead]
    exact hdivided
  · rw [hstopped] at hopen
    cases hopen
  · have hhandler : s.call .handler = .polled (.read room) (.read polled) := hpolled
    rw [hidle] at hhandler
    cases hhandler

theorem inv_step (hQ : Q.Lawful) (hfits : Q.Fits) {l : Label Q} (hinv : Inv body s)
    (hC : s.ReadsClear body l) (h : s.step l = some t) : Inv body t := by
  cases steps_of_step hinv.reads h with
  | takes hshared => exact inv_takes hinv hshared
  | misses haway => exact hinv.keeps (Upload.keeps_atEnd s.upload _)
  | polls htaken => exact inv_polls hQ hfits hinv htaken hC
  | restores hpolled => exact inv_restores hinv hpolled
  | packets packet => exact inv_packets hQ hinv packet
  | drains hkeeps => exact hinv.keeps hkeeps
  | stops hshared hstop => exact inv_stops hQ hinv hshared hstop

/-- What the handler has read begins the body, whatever it is going to be returned. -/
theorem begins_of_inv (hinv : Inv body s) : s.upload.received <+: body := by
  by_cases hidle : ∀ reader, s.call reader = .idle
  · exact (hinv.divided_of_idle hidle).begins
  · obtain ⟨reader, hactive⟩ := not_forall.mp hidle
    have hdivided := hinv.divided reader fun other => hinv.idle_of_ne hactive
    exact Upload.received_add.trans hdivided.begins

theorem told_of_inv {l : Label Q} (hinv : Inv body s) (hC : s.ReadsClear body l) :
    Upload.Told Receiving.upload rest returns body s l := by
  intro room polled hreturns hroom
  cases l with
  | take reader room' =>
      by_cases hidle : s.call reader = .idle
      · rw [returns_take hidle] at hreturns
        obtain ⟨haway, ⟨⟩⟩ := Option.ite_none_left_eq_some.mp hreturns
        have hall : s.upload.received = body := (hC hroom).resolve_left haway
        refine ⟨?_, fun _ => hall, nofun⟩
        show s.upload.received ++ [] <+: body
        rw [List.append_nil]
        exact begins_of_inv hinv
      · have hnone : s.clones.returns (.take (number reader) (.read room')) = none := by
          rw [Clones.returns]
          split
          · next hcall => exact absurd hcall hidle
          · rfl
        rw [returns, hnone] at hreturns
        cases hreturns
  | restore reader =>
      have hread := hinv.reads reader
      cases hcall : s.call reader with
      | polled p result =>
          rw [hcall] at hread
          obtain ⟨room', polled', rfl, rfl⟩ := hread
          rw [returns_restore hcall] at hreturns
          cases hreturns
          exact hinv.answers room polled hcall hroom
      | _ =>
          rw [call] at hcall
          rw [returns, hcall] at hreturns
          cases hreturns
  | _ => cases hreturns

/-- **An upload over quinn.** As long as the handler's reads with room find the half, and follow
what the handler has read, it reads a beginning of the body, and is told the truth of the end. -/
theorem sound_of_readsClear (hQ : Q.Lawful) (hfits : Q.Fits) {halves : Q.Halves}
    (hopen : Q.isStopped halves = false) {ls : List (Label Q)}
    (hC : Always step (ReadsClear (Q.rest halves)) (start halves) ls) :
    Upload.Sound step Receiving.upload rest returns (Q.rest halves) (start halves) ls :=
  Upload.sound_of_always (Inv (Q.rest halves)) (fun _ => begins_of_inv)
    (fun _ _ => told_of_inv) (fun _ _ _ => inv_step hQ hfits) (inv_start hopen) hC

end

end Receiving

end Libcfd.Edge.Quic.Quinn
