/-!
# Readers that are polled

A reader is polled with some room and comes back with nothing yet, with a fault, or with bytes that
fit; no bytes are the end. What a reader still owes is whatever it will come back with until then:
if every poll takes what it returns off what is owed, and comes nearer to the end (`Pays`), then
polling until the end returns what was owed at the beginning, whatever room the polls had
(`readToEnd_of_pays`).

Two readers may share a source. The one is told the truth as long as it misses nothing of what the
other has taken (`Divided.append_eq`, `answers_of_append_eq`).
-/

namespace Libcfd.Reader

variable {Symbol Fault σ : Type}

/-- What a poll for reading comes to. -/
inductive Polled (Symbol Fault : Type) where
  | pending
  | ready (result : Except Fault (List Symbol))

namespace Polled

/-- `Ok(0)`. -/
abbrev atEnd : Polled Symbol Fault := .ready (.ok [])

def bytes : Polled Symbol Fault → List Symbol
  | .ready (.ok piece) => piece
  | _ => []

end Polled

/-- Poll until the end, at most `turns` times: what was read on the way, and the reader at the
end. -/
def readToEnd (poll : Nat → σ → Polled Symbol Fault × σ) :
    (turns : Nat) → (room : Nat → Nat) → σ → Option (List Symbol × σ)
  | 0, _, _ => none
  | turns + 1, room, s =>
      match poll (room 0) s with
      | (.ready (.ok []), s') => some ([], s')
      | (result, s') =>
          (readToEnd poll turns (fun i => room (i + 1)) s').map fun (rest, last) =>
            (result.bytes ++ rest, last)

section

variable {poll : Nat → σ → Polled Symbol Fault × σ} {s s' last : σ} {turns : Nat}
  {room : Nat → Nat} {read : List Symbol}

theorem readToEnd_end (h : poll (room 0) s = (.atEnd, s')) (turns : Nat) :
    readToEnd poll (turns + 1) room s = some ([], s') := by
  rw [readToEnd, h]

theorem readToEnd_again {result : Polled Symbol Fault} (h : poll (room 0) s = (result, s'))
    (hresult : result ≠ .atEnd) (turns : Nat) :
    readToEnd poll (turns + 1) room s =
      (readToEnd poll turns (fun i => room (i + 1)) s').map fun (rest, last) =>
        (result.bytes ++ rest, last) := by
  rw [readToEnd, h]
  split
  · next heq =>
      cases heq
      exact absurd rfl hresult
  · next heq =>
      cases heq
      rfl

/-- More turns change nothing. -/
theorem readToEnd_mono (h : readToEnd poll turns room s = some (read, last)) :
    readToEnd poll (turns + 1) room s = some (read, last) := by
  induction turns generalizing room s read with
  | zero => cases h
  | succ turns ih =>
      rcases hpoll : poll (room 0) s with ⟨result, s'⟩
      by_cases hresult : result = .atEnd
      · subst hresult
        rw [readToEnd_end hpoll] at h ⊢
        exact h
      · rw [readToEnd_again hpoll hresult, Option.map_eq_some_iff] at h
        obtain ⟨⟨rest, last⟩, hrest, ⟨⟩⟩ := h
        rw [readToEnd_again hpoll hresult, ih hrest, Option.map_some]

theorem readToEnd_le {turns' : Nat} (h : readToEnd poll turns room s = some (read, last))
    (hle : turns ≤ turns') : readToEnd poll turns' room s = some (read, last) := by
  induction hle with
  | refl => exact h
  | step _ ih => exact readToEnd_mono ih

/-- A reader reads what it reads. -/
theorem readToEnd_unique {turns' : Nat} {read' : List Symbol} {last' : σ}
    (h : readToEnd poll turns room s = some (read, last))
    (h' : readToEnd poll turns' room s = some (read', last')) : read = read' ∧ last = last' := by
  have hmax := readToEnd_le h (Nat.le_max_left turns turns')
  rw [readToEnd_le h' (Nat.le_max_right turns turns')] at hmax
  cases hmax
  exact ⟨rfl, rfl⟩

end

/-! ## Polls one after the other -/

/-- Poll with each room in turn: the results, and the reader after the last of them. -/
def polls (poll : Nat → σ → Polled Symbol Fault × σ) :
    (rooms : List Nat) → σ → List (Polled Symbol Fault) × σ
  | [], s => ([], s)
  | room :: rooms, s =>
      ((poll room s).1 :: (polls poll rooms (poll room s).2).1, (polls poll rooms (poll room s).2).2)

/-- All that was read. -/
def bytesOf (results : List (Polled Symbol Fault)) : List Symbol := results.flatMap Polled.bytes

theorem bytesOf_concat (results : List (Polled Symbol Fault)) (result : Polled Symbol Fault) :
    bytesOf (results ++ [result]) = bytesOf results ++ result.bytes := by
  rw [bytesOf, List.flatMap_append, List.flatMap_singleton]
  rfl

theorem length_polls (poll : Nat → σ → Polled Symbol Fault × σ) (rooms : List Nat) (s : σ) :
    (polls poll rooms s).1.length = rooms.length := by
  induction rooms generalizing s with
  | nil => rfl
  | cons room rooms ih => exact congrArg Nat.succ (ih _)

/-- **What every poll keeps, of the results and the reader, holds after any polls**, whatever room
they have, as long as they have some. -/
theorem polls_induction {poll : Nat → σ → Polled Symbol Fault × σ}
    (Inv : List (Polled Symbol Fault) → σ → Prop)
    (hpoll : ∀ results s room, Inv results s → 0 < room →
      Inv (results ++ [(poll room s).1]) (poll room s).2)
    {results : List (Polled Symbol Fault)} {s : σ} (hinv : Inv results s) {rooms : List Nat}
    (hrooms : ∀ room ∈ rooms, 0 < room) :
    Inv (results ++ (polls poll rooms s).1) (polls poll rooms s).2 := by
  induction rooms generalizing results s with
  | nil => simpa [polls] using hinv
  | cons room rooms ih =>
      have hfirst := hpoll results s room hinv (hrooms room List.mem_cons_self)
      have hrest := ih hfirst fun r hr => hrooms r (List.mem_cons_of_mem room hr)
      rw [List.append_assoc] at hrest
      exact hrest

/-- A poll takes what it returns off what is owed, returns the end when nothing is owed any more,
and else leaves less to do. -/
structure Pays (owed : σ → List Symbol) (size : σ → Nat) (Ended : σ → Prop) (owes : List Symbol)
    (bound : Nat) (polled : Polled Symbol Fault × σ) : Prop where
  pays : polled.1.bytes ++ owed polled.2 = owes
  ends : polled.1 = .atEnd → owes = [] ∧ Ended polled.2
  shrinks : polled.1 ≠ .atEnd → size polled.2 < bound

/-- **A reader that pays is read to its end**, whatever room it is given. -/
theorem readToEnd_of_pays {poll : Nat → σ → Polled Symbol Fault × σ} {owed : σ → List Symbol}
    {size : σ → Nat} {Ended : σ → Prop}
    (hpoll : ∀ s room, 0 < room → Pays owed size Ended (owed s) (size s) (poll room s)) (s : σ)
    {room : Nat → Nat} (hroom : ∀ i, 0 < room i) :
    ∃ turns last, readToEnd poll turns room s = some (owed s, last) ∧ Ended last := by
  induction hsize : size s using Nat.strongRecOn generalizing s room with
  | ind n ih =>
      have hpays := hpoll s (room 0) (hroom 0)
      rcases heq : poll (room 0) s with ⟨result, s'⟩
      rw [heq] at hpays
      by_cases hresult : result = .atEnd
      · subst hresult
        obtain ⟨hnothing, hended⟩ := hpays.ends rfl
        refine ⟨1, s', ?_, hended⟩
        rw [readToEnd_end heq, hnothing]
      · have hlt : size s' < n := hsize ▸ hpays.shrinks hresult
        obtain ⟨turns, last, hrest, hended⟩ :=
          ih (size s') hlt s' (fun i => hroom (i + 1)) rfl
        refine ⟨turns + 1, last, ?_, hended⟩
        rw [readToEnd_again heq hresult, hrest, Option.map_some, ← hpays.pays]

/-- A reader whose polls pay as long as `Inv` holds, which they keep, and never give more than there
is room for. -/
structure Honest (poll : Nat → σ → Polled Symbol Fault × σ) (Inv : σ → Prop)
    (owed : σ → List Symbol) (size : σ → Nat) (Ended : σ → Prop) : Prop where
  keeps : ∀ s room, Inv s → 0 < room → Inv (poll room s).2
  pays : ∀ s room, Inv s → 0 < room → Pays owed size Ended (owed s) (size s) (poll room s)
  fits : ∀ s room, (poll room s).1.bytes.length ≤ room

/-! ## A source that two readers share -/

/-- What one reader of a source has got is a beginning of it; that, what the other has got and what
is to come are no more than the source; and if the other has got nothing and nothing is lost, they
are all of it. -/
structure Divided (all mine others rest : List Symbol) (lost : Bool) : Prop where
  length_le : mine.length + others.length + rest.length ≤ all.length
  begins : mine <+: all
  whole : others = [] → lost = false → mine ++ rest = all

/-- The reader has got it all, or misses nothing. -/
def Clear (all mine others : List Symbol) (lost : Bool) : Prop :=
  mine = all ∨ others = [] ∧ lost = false

/-- What a poll may tell a reader that has got `mine` of `all`, of which `rest` is to come. -/
structure Answers (all mine rest : List Symbol) (polled : Polled Symbol Fault) : Prop where
  begins : mine ++ polled.bytes <+: all
  complete : polled = .atEnd → mine = all
  -- a reader that is to wait misses nothing
  coming : polled = .pending → mine ++ rest = all

section

variable {all mine others rest rest' piece : List Symbol} {lost : Bool}

theorem divided_start (all : List Symbol) : Divided all [] [] all false :=
  ⟨by simp, List.nil_prefix, fun _ _ => rfl⟩

/-- Nothing is to come for a reader that has got it all. -/
theorem Divided.rest_eq_nil (h : Divided all mine others rest lost) (hmine : mine = all) :
    rest = [] := by
  have hlength := h.length_le
  rw [hmine] at hlength
  exact List.eq_nil_of_length_eq_zero (by omega)

theorem Divided.append_eq (h : Divided all mine others rest lost)
    (hclear : Clear all mine others lost) : mine ++ rest = all := by
  rcases hclear with hmine | ⟨hothers, hlost⟩
  · rw [h.rest_eq_nil hmine, List.append_nil, hmine]
  · exact h.whole hothers hlost

/-- The reader may take a piece while what it has got and what is to come are all. -/
theorem Divided.take (h : Divided all mine others rest lost) (hpiece : piece ++ rest' = rest)
    (hclear : mine ++ rest = all ∨ piece = []) :
    Divided all (mine ++ piece) others rest' lost := by
  subst hpiece
  refine ⟨?_, ?_, fun hothers hlost => ?_⟩
  · have hlength := h.length_le
    rw [List.length_append] at hlength ⊢
    omega
  · rcases hclear with rfl | rfl
    · rw [← List.append_assoc]
      exact List.prefix_append _ _
    · rw [List.append_nil]
      exact h.begins
  · rw [List.append_assoc]
    exact h.whole hothers hlost

/-- The other may take a piece at any time. -/
theorem Divided.cede (h : Divided all mine others rest lost) (hpiece : piece ++ rest' = rest) :
    Divided all mine (others ++ piece) rest' lost := by
  subst hpiece
  refine ⟨?_, h.begins, fun hnothing hlost => ?_⟩
  · have hlength := h.length_le
    rw [List.length_append] at hlength ⊢
    omega
  · obtain ⟨hothers, rfl⟩ := List.append_eq_nil_iff.mp hnothing
    exact h.whole hothers hlost

theorem Divided.lose (h : Divided all mine others rest lost) : Divided all mine others [] true := by
  refine ⟨?_, h.begins, nofun⟩
  have hlength := h.length_le
  rw [List.length_nil]
  omega

/-- A reader that misses nothing is told the truth. -/
theorem answers_of_append_eq {polled : Polled Symbol Fault} (h : mine ++ rest = all)
    (hpays : polled.bytes ++ rest' = rest) (hend : polled = .atEnd → rest = []) :
    Answers all mine rest' polled := by
  subst hpays
  refine ⟨?_, fun hatEnd => ?_, ?_⟩
  · rw [← h, ← List.append_assoc]
    exact List.prefix_append _ _
  · rw [← h, hend hatEnd, List.append_nil]
  · rintro rfl
    exact h

theorem answers_error (h : mine <+: all) (error : Fault) :
    Answers all mine rest (.ready (.error error) : Polled Symbol Fault) := by
  refine ⟨?_, nofun, nofun⟩
  show mine ++ [] <+: all
  rw [List.append_nil]
  exact h

end

end Libcfd.Reader
