import Clusdr.Metatheory.PublishOrder

/-!
The order in which a subscriber sees events. Publishers that overtake each other
between numbering and offering turn it around. Publishers that do not, keep it:
every channel takes the events in in the order of their numbers, whatever it
misses, until the counter wraps.
-/

namespace Clusdr

open Go (Time)
open Events (Event)
open EventBus (Bus)

/-- The step numbers an event. -/
def PublishStep.numbers : PublishStep → Bool
  | .number _ _ => true
  | _ => false

namespace Publishing

/-- The events that wait to be offered are numbered above all that were. -/
structure Orderly (w : Publishing) : Prop where
  intake : ∀ id, (seqs (w.intake id)).Pairwise (· < ·)
  ascending : (seqs w.numbered).Pairwise (· < ·)
  above : ∀ id, ∀ e' ∈ w.intake id, ∀ e ∈ w.numbered, e'.seq < e.seq
  numbered : ∀ e ∈ w.numbered, e.seq ≤ w.bus.seq
  taken : ∀ id, ∀ e ∈ w.intake id, e.seq ≤ w.bus.seq

theorem seq_step (w : Publishing) (ev : PublishStep) :
    (∃ now e, ev = .number now e) ∨ (w.step ev).bus.seq = w.bus.seq := by
  cases ev with
  | number now e => exact Or.inl ⟨now, e, rfl⟩
  | offer i =>
      right
      simp only [step]
      split <;> rfl
  | subscribe | watch | mark | greet | unsubscribe => exact Or.inr rfl
  | receive id =>
      right
      simp only [step]
      cases hreceive : w.bus.receive id with
      | none => rfl
      | some next =>
          obtain ⟨cap, ch, dropped, -, hbus⟩ := Bus.receive_eq_some hreceive
          simp only [hbus]
  | forward id now =>
      right
      simp only [step]
      cases w.streams id with
      | none => rfl
      | some s => exact WatchStream.seq_forward s w.bus now

theorem seq_step_le (w : Publishing) (ev : PublishStep) :
    (w.step ev).bus.seq.toNat ≤ w.bus.seq.toNat + if ev.numbers then 1 else 0 := by
  cases w.seq_step ev with
  | inl hnumber =>
      obtain ⟨now, e, rfl⟩ := hnumber
      exact Go.Counter.toNat_succ_le w.bus.seq
  | inr hsame =>
      rw [hsame]
      exact Nat.le_add_right _ _

theorem numbered_step (w : Publishing) (ev : PublishStep) :
    (∃ now e, ev = .number now e) ∨
      (w.step ev).numbered.Sublist w.numbered := by
  cases ev with
  | number now e => exact Or.inl ⟨now, e, rfl⟩
  | offer i =>
      right
      simp only [step]
      split
      · exact List.Sublist.refl _
      · exact List.eraseIdx_sublist _ _
  | subscribe | watch | mark | greet | unsubscribe => exact Or.inr (List.Sublist.refl _)
  | receive id =>
      right
      simp only [step]
      split <;> exact List.Sublist.refl _
  | forward id now =>
      right
      simp only [step]
      split <;> exact List.Sublist.refl _

theorem orderly_number {w : Publishing} (h : w.Orderly) (room : w.bus.seq.toNat + 1 < 2 ^ 64)
    (now : Time) (e : Event) : (w.step (.number now e)).Orderly := by
  have hnext : w.bus.seq < w.bus.seq + 1 := Bus.seq_lt_publish room now e
  have hmem : ∀ e', e' ∈ (w.step (.number now e)).numbered →
      e' ∈ w.numbered ∨ e'.seq = w.bus.seq + 1 := by
    intro e' he'
    refine (List.mem_append.mp he').imp_right fun hnew => ?_
    rw [List.mem_singleton.mp hnew]
    rfl
  refine ⟨h.intake, ?_, fun id e' he' e'' he'' => ?_, fun e' he' => ?_, fun id e' he' => ?_⟩
  · change (seqs (w.numbered ++ [w.bus.stamped now e])).Pairwise (· < ·)
    rw [seqs, List.map_append, List.pairwise_append]
    refine ⟨h.ascending, List.pairwise_singleton _ _, fun a ha b hb => ?_⟩
    obtain ⟨e', he', rfl⟩ := List.mem_map.mp ha
    rw [List.mem_singleton.mp hb]
    exact UInt64.lt_of_le_of_lt (h.numbered e' he') hnext
  · cases hmem e'' he'' with
    | inl hold => exact h.above id e' he' e'' hold
    | inr hnew =>
        rw [hnew]
        exact UInt64.lt_of_le_of_lt (h.taken id e' he') hnext
  · cases hmem e' he' with
    | inl hold => exact UInt64.le_of_lt (UInt64.lt_of_le_of_lt (h.numbered e' hold) hnext)
    | inr hnew => exact UInt64.le_of_eq hnew
  · exact UInt64.le_of_lt (UInt64.lt_of_le_of_lt (h.taken id e' he') hnext)

theorem orderly_step {w : Publishing} (h : w.Orderly) {ev : PublishStep}
    (room : ev.numbers = true → w.bus.seq.toNat + 1 < 2 ^ 64)
    (oldest : ∀ i, ev = .offer i → i = 0) : (w.step ev).Orderly := by
  by_cases hnumber : ∃ now e, ev = .number now e
  · obtain ⟨now, e, rfl⟩ := hnumber
    exact orderly_number h (room rfl) now e
  have hseq := (w.seq_step ev).resolve_left hnumber
  have hsub := (w.numbered_step ev).resolve_left hnumber
  -- What a channel takes in is the oldest waiting event: above all it has, below all that wait.
  have htaken : ∀ id, ((w.step ev).intake id).Sublist (w.intake id) ∨
      ∃ e ∈ w.numbered, (w.step ev).intake id = w.intake id ++ [e] ∧
        ∀ e' ∈ (w.step ev).numbered, e.seq < e'.seq := by
    intro id
    cases w.intake_step ev id with
    | inr hnone => exact Or.inl hnone
    | inl hnew =>
        obtain ⟨i, e, rfl, hnumbered, hintake⟩ := hnew
        refine Or.inr ⟨e, List.mem_of_getElem? hnumbered, hintake, ?_⟩
        cases oldest i rfl
        cases hlist : w.numbered with
        | nil => simp [hlist] at hnumbered
        | cons first rest =>
            have hfirst : first = e := by simpa [hlist] using hnumbered
            have hascending := h.ascending
            rw [hlist, seqs, List.map_cons] at hascending
            intro e' he'
            simp only [step, hlist, List.eraseIdx_cons_zero] at he'
            rw [← hfirst]
            exact List.rel_of_pairwise_cons hascending (List.mem_map_of_mem he')
  have hmem : ∀ id, ∀ e ∈ (w.step ev).intake id, e ∈ w.intake id ∨
      (e ∈ w.numbered ∧ ∀ e' ∈ (w.step ev).numbered, e.seq < e'.seq) := by
    intro id e he
    rcases htaken id with hnone | ⟨new, hnew, hintake, hbelow⟩
    · exact Or.inl (hnone.subset he)
    · rw [hintake] at he
      refine (List.mem_append.mp he).imp_right fun hlast => ?_
      rw [List.mem_singleton.mp hlast]
      exact ⟨hnew, hbelow⟩
  refine ⟨fun id => ?_, h.ascending.sublist (hsub.map Event.seq), fun id e he e' he' => ?_,
    fun e he => ?_, fun id e he => ?_⟩
  · rcases htaken id with hnone | ⟨new, hnew, hintake, -⟩
    · exact (h.intake id).sublist (hnone.map Event.seq)
    · rw [hintake, seqs, List.map_append, List.pairwise_append]
      refine ⟨h.intake id, List.pairwise_singleton _ _, fun a ha b hb => ?_⟩
      obtain ⟨old, hold, rfl⟩ := List.mem_map.mp ha
      rw [List.mem_singleton.mp hb]
      exact h.above id old hold new hnew
  · cases hmem id e he with
    | inl hold => exact h.above id e hold e' (hsub.subset he')
    | inr hnew => exact hnew.2 e' he'
  · rw [hseq]
    exact h.numbered e (hsub.subset he)
  · rw [hseq]
    cases hmem id e he with
    | inl hold => exact h.taken id e hold
    | inr hnew => exact h.numbered e hnew.1

theorem orderly_start : start.Orderly where
  intake _ := List.Pairwise.nil
  ascending := List.Pairwise.nil
  above := nofun
  numbered := nofun
  taken := nofun

theorem inSequence_run {w : Publishing} (faithful : w.Faithful) (h : w.Orderly) (id : UInt64)
    {steps : List PublishStep}
    (few : w.bus.seq.toNat + steps.countP PublishStep.numbers < 2 ^ 64)
    (oldest : ∀ i, .offer i ∈ steps → i = 0) : Runs.Always step (InSequence id) w steps := by
  have now := inSequence_of_intake faithful (h.intake id)
  induction steps generalizing w with
  | nil => exact now
  | cons ev steps ih =>
      rw [List.countP_cons] at few
      have horderly : (w.step ev).Orderly := by
        refine orderly_step h (fun hnumbers => ?_) fun i hi => oldest i (hi ▸ List.mem_cons_self)
        rw [if_pos hnumbers] at few
        omega
      have hfaithful := faithful_step faithful ev
      have hseq := w.seq_step_le ev
      exact ⟨now, ih hfaithful horderly (by omega)
        (fun i hi => oldest i (List.mem_cons_of_mem _ hi))
        (inSequence_of_intake hfaithful (horderly.intake id))⟩

end Publishing

open Publishing in
/-- If every event is offered before those numbered after it, a subscriber, and the
stream of a `Watch`, see the events in the order of their numbers. -/
theorem subscriber_in_sequence_of_oldest_first (id : UInt64) (steps : List PublishStep)
    (few : steps.countP PublishStep.numbers < 2 ^ 64) (oldest : ∀ i, .offer i ∈ steps → i = 0) :
    Runs.Always step (InSequence id) start steps :=
  inSequence_run faithful_start orderly_start id
    (by rwa [show start.bus.seq.toNat = 0 from rfl, Nat.zero_add]) oldest

namespace Publishing

instance (w : Publishing) (ev : PublishStep) : Decidable (w.May ev) := by
  cases ev <;> unfold May <;> infer_instance

/-- A stream is in its loop and two publishers have numbered their events. -/
def twoNumbered : List PublishStep :=
  [.watch {}, .mark 1, .greet 1 0 [] "", .number 0 ⟨"member.join", "n2", .empty, 0, 0⟩,
    .number 0 ⟨"leader.changed", "n2", .empty, 0, 0⟩]

/-- The stream takes two events from its channel and sends them. -/
def twoForwarded : List PublishStep :=
  [.receive 1, .forward 1 0, .receive 1, .forward 1 0]

/-- The second publisher offers first. -/
def overtaken : List PublishStep := twoNumbered ++ [.offer 1, .offer 0] ++ twoForwarded

def queued : List PublishStep := twoNumbered ++ [.offer 0, .offer 0] ++ twoForwarded

end Publishing

open Publishing in
theorem subscriber_in_sequence_of_oldest_first_queued :
    Runs.Along step May start queued ∧ Runs.Always step (InSequence 1) start queued ∧
      ((Runs.run step start queued).streams 1).map (fun s => seqs (live s)) = some [1, 2] := by
  refine ⟨by decide +kernel, ?_, by decide +kernel⟩
  refine subscriber_in_sequence_of_oldest_first 1 queued (by decide) fun i hi => ?_
  simp only [queued, twoNumbered, twoForwarded, List.cons_append, List.nil_append, List.mem_cons,
    reduceCtorEq, PublishStep.offer.injEq, List.not_mem_nil, or_false, false_or, or_self] at hi
  exact hi

open Publishing in
theorem subscriber_out_of_sequence :
    let w := Runs.run step start overtaken
    Runs.Along step May start overtaken ∧ seqs (w.received 1) = [2, 1] ∧
      (w.streams 1).map (fun s => seqs (live s)) = some [2, 1] ∧
      ¬ Runs.Always step (InSequence 1) start overtaken := by
  have passed : seqs ((Runs.run step start overtaken).received 1) = [2, 1] := by decide +kernel
  refine ⟨by decide +kernel, passed, by decide +kernel, fun always => ?_⟩
  have hpairs := always.last.1
  rw [passed] at hpairs
  exact absurd hpairs (by decide)

end Clusdr
