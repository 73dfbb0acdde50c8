import Mathlib.Data.List.Infix
import Mathlib.Data.Nat.Notation
import Anemoi.Systems.Machine

/-!
# Reading frames off a buffer

A reader of a stream keeps what it cannot read yet in a buffer. It appends each chunk that
arrives and takes complete frames off the front as long as there is one. `Framer.next`
is how one frame comes off; `drain` is the loop.

What comes out does not depend on how the stream was cut into chunks. For that a frame,
once complete, must stay the first frame however much follows it, which is the field
`stable`; then `drain_append` says that reading may stop anywhere and go on later, and
`flatMap_output_feed` and `runFrom_feed` carry this to any list of chunks. `drain_of_arrived`
says what is read of a stream that a sender wrote and that may break off anywhere.
-/

namespace Systems

/-- How one frame comes off the front of a buffer. -/
structure Framer (α : Type*) where
  next : List α → Option (List α × List α)
  shrinks : ∀ {buffer frame rest}, next buffer = some (frame, rest) →
    rest.length < buffer.length
  stable : ∀ {buffer frame rest}, next buffer = some (frame, rest) →
    ∀ more, next (buffer ++ more) = some (frame, rest ++ more)

namespace Framer

variable {α β : Type*} (F : Framer α) (read : List α → Option β)

/-- Take frames off the buffer while there is one: what was read from them, and the
buffer that is left. -/
def drain (buffer : List α) : List β × List α :=
  match _h : F.next buffer with
  | none => ([], buffer)
  | some (frame, rest) => ((read frame).toList ++ (drain rest).1, (drain rest).2)
  termination_by buffer.length
  decreasing_by all_goals exact F.shrinks _h

theorem next_nil : F.next [] = none := by
  cases h : F.next [] with
  | none => rfl
  | some r => exact absurd (F.shrinks h) (Nat.not_lt_zero _)

theorem drain_of_none {buffer : List α} (h : F.next buffer = none) :
    F.drain read buffer = ([], buffer) := by
  rw [drain]
  split
  · rfl
  · next hsome =>
      rw [h] at hsome
      cases hsome

theorem drain_of_some {buffer frame rest : List α} (h : F.next buffer = some (frame, rest)) :
    F.drain read buffer =
      ((read frame).toList ++ (F.drain read rest).1, (F.drain read rest).2) := by
  rw [drain]
  split
  · next hnone =>
      rw [h] at hnone
      cases hnone
  · next hsome =>
      rw [h] at hsome
      obtain ⟨rfl, rfl⟩ := Prod.mk.inj (Option.some.inj hsome)
      rfl

/-- An induction along the loop. -/
theorem drain_induction {P : List α → Prop} (hstop : ∀ buffer, F.next buffer = none → P buffer)
    (hnext : ∀ buffer frame rest, F.next buffer = some (frame, rest) → P rest → P buffer)
    (buffer : List α) : P buffer := by
  induction hn : buffer.length using Nat.strongRecOn generalizing buffer with
  | ind n ih =>
      cases h : F.next buffer with
      | none => exact hstop buffer h
      | some fr =>
          exact hnext buffer fr.1 fr.2 h (ih _ (hn ▸ F.shrinks h) fr.2 rfl)

/-- The loop with a bound on its rounds; `none` when they do not suffice. -/
def drainWithin : ℕ → List α → Option (List β × List α)
  | 0, _ => none
  | n + 1, buffer =>
      match F.next buffer with
      | none => some ([], buffer)
      | some (frame, rest) =>
          (drainWithin n rest).map fun r => ((read frame).toList ++ r.1, r.2)

/-- The loop ends, within as many rounds as there are elements in the buffer and one. -/
theorem drainWithin_of_lt {n : ℕ} {buffer : List α} (h : buffer.length < n) :
    F.drainWithin read n buffer = some (F.drain read buffer) := by
  induction n generalizing buffer with
  | zero => exact absurd h (Nat.not_lt_zero _)
  | succ n ih =>
      rw [drainWithin]
      split
      · next hnone => rw [drain_of_none F read hnone]
      · next hsome =>
          have hshort := F.shrinks hsome
          rw [drain_of_some F read hsome, ih (by omega), Option.map_some]

/-- The loop ends on a buffer without a complete frame. -/
theorem next_drain (buffer : List α) : F.next (F.drain read buffer).2 = none := by
  induction buffer using F.drain_induction with
  | hstop buffer h =>
      rw [drain_of_none F read h]
      exact h
  | hnext buffer frame rest h ih =>
      rw [drain_of_some F read h]
      exact ih

/-- What is left of a buffer was at its end. -/
theorem drain_suffix (hsuffix : ∀ {buffer frame rest}, F.next buffer = some (frame, rest) →
    rest <:+ buffer) (buffer : List α) : (F.drain read buffer).2 <:+ buffer := by
  induction buffer using F.drain_induction with
  | hstop buffer h =>
      rw [drain_of_none F read h]
  | hnext buffer frame rest h ih =>
      rw [drain_of_some F read h]
      exact ih.trans (hsuffix h)

/-- Reading may stop anywhere and go on with what was left. -/
theorem drain_append (buffer more : List α) :
    F.drain read (buffer ++ more) =
      ((F.drain read buffer).1 ++ (F.drain read ((F.drain read buffer).2 ++ more)).1,
        (F.drain read ((F.drain read buffer).2 ++ more)).2) := by
  induction buffer using F.drain_induction with
  | hstop buffer h =>
      rw [drain_of_none F read h, List.nil_append]
  | hnext buffer frame rest h ih =>
      rw [drain_of_some F read h, drain_of_some F read (F.stable h more), ih, List.append_assoc]

/-- Append a chunk to the buffer and read. -/
def feed (buffer chunk : List α) : List β × List α :=
  F.drain read (buffer ++ chunk)

/-- The buffer after any chunks is that after the whole stream. -/
theorem runFrom_feed {buffer : List α} (h : F.next buffer = none) (chunks : List (List α)) :
    Machine.runFrom (F.feed read) buffer chunks =
      (F.drain read (buffer ++ chunks.flatten)).2 := by
  induction chunks generalizing buffer with
  | nil => rw [List.flatten_nil, List.append_nil, drain_of_none F read h, Machine.runFrom_nil]
  | cons chunk chunks ih =>
      rw [Machine.runFrom_cons, feed, ih (F.next_drain read _), List.flatten_cons,
        ← List.append_assoc, drain_append F read (buffer ++ chunk)]

/-- What any chunks give is what the whole stream gives. -/
theorem flatMap_output_feed {buffer : List α} (h : F.next buffer = none)
    (chunks : List (List α)) :
    (Machine.logFrom (F.feed read) buffer chunks).flatMap Record.output =
      (F.drain read (buffer ++ chunks.flatten)).1 := by
  induction chunks generalizing buffer with
  | nil =>
      rw [List.flatten_nil, List.append_nil, drain_of_none F read h]
      rfl
  | cons chunk chunks ih =>
      rw [Machine.logFrom_cons, List.flatMap_cons, Machine.record, feed,
        ih (F.next_drain read _), List.flatten_cons, ← List.append_assoc,
        drain_append F read (buffer ++ chunk)]

/-! ### Streams of a sender -/

/-- What a sender writes for a thing, `wire`, comes off the buffer as a frame of its own, but
only when all of it is there. -/
structure Wires {γ : Type*} (wire frame : γ → List α) : Prop where
  next_wire : ∀ c more, F.next (wire c ++ more) = some (frame c, more)
  next_cut : ∀ c cut, cut <+: wire c → cut ≠ wire c → F.next cut = none

/-- What was sent in full when these elements have arrived. -/
def arrived {γ : Type*} [DecidableEq α] (wire : γ → List α) : List γ → List α → List γ
  | [], _ => []
  | c :: sent, bytes =>
      if wire c <+: bytes then c :: arrived wire sent (bytes.drop (wire c).length) else []

/-- However much of a stream has arrived, what is read is what was sent in full. -/
theorem drain_of_arrived {γ : Type*} [DecidableEq α] {wire frame : γ → List α}
    (h : F.Wires wire frame) {sent : List γ} {bytes : List α}
    (hbytes : bytes <+: sent.flatMap wire) :
    (F.drain read bytes).1 = (arrived wire sent bytes).filterMap fun c => read (frame c) := by
  induction sent generalizing bytes with
  | nil =>
      rw [List.prefix_nil.mp hbytes, drain_of_none F read F.next_nil]
      rfl
  | cons c sent ih =>
      rw [List.flatMap_cons] at hbytes
      rw [arrived]
      by_cases hwhole : wire c <+: bytes
      · obtain ⟨rest, rfl⟩ := hwhole
        have hrest := ih ((List.prefix_append_right_inj (wire c)).mp hbytes)
        rw [if_pos (List.prefix_append _ _), List.drop_left,
          drain_of_some F read (h.next_wire c rest), List.filterMap_cons, hrest]
        cases read (frame c) <;> rfl
      · have hcut : bytes <+: wire c := by
          rcases List.prefix_or_prefix_of_prefix hbytes (List.prefix_append (wire c) _) with
            hle | hge
          · exact hle
          · exact absurd hge hwhole
        have hne : bytes ≠ wire c := fun heq => hwhole (heq ▸ List.prefix_rfl)
        rw [if_neg hwhole, drain_of_none F read (h.next_cut c bytes hcut hne)]
        rfl

end Framer

end Systems
