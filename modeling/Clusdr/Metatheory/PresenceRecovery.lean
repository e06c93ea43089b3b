import Clusdr.Metatheory.LivenessLoops

/-!
A node that comes back. Its keeper renews or grants its presence lease again, and
the list goes on calling it dead if one of the loops had marked it.
-/

namespace Clusdr

open Go (Duration Unicode)
open EventBus (Bus)
open Consensus (Fsm Submission)
open Clusdr.Membership (Member statusAlive statusDead)

open Liveness in
/-- The members with a live presence lease are alive in every state of a run exactly
if none of them was removed earlier in it. -/
theorem lease_holders_alive_iff [Unicode] (fsm : Fsm) (reachable : fsm.applier.Reachable)
    (alive : ∀ id m, fsm.applier.members.get id = some m → m.status = statusAlive)
    (leaseTTL : Duration) (b : Bus) (presenceTTL : String → Duration) (maxMisses : Int)
    (steps : List LivenessStep) :
    Runs.Always step HoldersAlive (start fsm leaseTTL b presenceTTL maxMisses) steps ↔
      Runs.Always step NoneReturned (start fsm leaseTTL b presenceTTL maxMisses) steps := by
  have htracked : (start fsm leaseTTL b presenceTTL maxMisses).Tracked :=
    ⟨reachable.valid, fun id m hm => iff_of_true (alive id m hm) List.not_mem_nil⟩
  exact Runs.always_congr Tracked htracked (fun s ev h => tracked_step h ev)
    (fun s h => holdersAlive_iff h) steps

namespace Liveness

instance (s : Liveness) (ev : LivenessStep) : Decidable (s.May ev) := by
  cases ev <;> unfold May <;> infer_instance

instance (s : Liveness) : Decidable s.Settled := inferInstanceAs (Decidable (∀ e ∈ s.queue, _))

instance (s : Liveness) (id : String) : Decidable (s.Refreshed id) :=
  inferInstanceAs (Decidable (_ = _))

def n1 : Member := ⟨"n1", "10.0.0.1:7947", statusAlive, true, Membership.roleVoter, 0⟩

def n2 : Member := ⟨"n2", "10.0.0.2:7947", statusAlive, false, Membership.roleVoter, 0⟩

/-- A leader `n1` that lists `n2`. -/
def pair : Fsm :=
  ⟨((Membership.Engine.new 0 "n1" n1.address).join 0 "n2" n2.address).1, some .new, some .new⟩

theorem members_pair (id : String) : pair.applier.members.get id =
    if id = "n2" then some n2 else if id = "n1" then some n1 else none := by
  change (Go.Map.set (Go.Map.set ∅ "n1" n1) "n2" n2).get id = _
  rw [Go.Map.get_set, Go.Map.get_set, Go.Map.get_empty]

theorem membersList_pair : pair.applier.membersList = [n1, n2] := by
  refine Go.Map.sorted_eq Member.id (by decide) (by decide) fun id m hm => ?_
  rw [members_pair] at hm
  split at hm
  · rename_i hid; simp [hid, n2]
  · split at hm
    · rename_i hid; simp [hid, n1]
    · cases hm

def pairStart : Liveness := start pair (15 * Duration.second) .new (fun _ => 3 * Duration.second) 3

def committed : Submission := ⟨0, 0, .committed⟩

/-- A tick in which `n2` is pinged. -/
def tickN2 (reached : Bool) : List LivenessStep :=
  [.tick, .probe true committed, .probe reached committed]

/-- `n2` misses three pings and goes on renewing its lease. -/
def missedPings : List LivenessStep :=
  .grant "n2" .answered committed :: (tickN2 false ++ (tickN2 false ++ (tickN2 false ++
    [.watch committed, .watch committed, .renew "n2" .answered committed])))

/-- A tick on what `pair` lists, without the sorting. -/
def probed [Unicode] (reached : Bool) (s : Liveness) : Liveness :=
  Runs.run step { s with todo := [n1, n2] } [.probe true committed, .probe reached committed]

theorem step_tick [Unicode] {s : Liveness} (h : s.fsm.applier = pair.applier) :
    s.step .tick = { s with todo := [n1, n2] } := by
  rw [← membersList_pair, ← h]
  rfl

theorem run_tickN2 [Unicode] {s : Liveness} (h : s.fsm.applier = pair.applier) (reached : Bool)
    (rest : List LivenessStep) :
    Runs.run step s (tickN2 reached ++ rest) = Runs.run step (probed reached s) rest := by
  rw [Runs.run_append, probed, ← step_tick h]
  rfl

theorem todo_removeDead [Unicode] (s : Liveness) (sub : Submission) (id : Option String) :
    (s.removeDead sub id).todo = s.todo := by
  unfold removeDead submit
  split
  · rfl
  · split
    · split <;> rfl
    · rfl

theorem along_tickN2 [Unicode] {s : Liveness} (h : s.fsm.applier = pair.applier)
    (idle : s.todo.isEmpty) {reached : Bool} {rest : List LivenessStep}
    (hrest : Runs.Along step May (probed reached s) rest) :
    Runs.Along step May s (tickN2 reached ++ rest) := by
  refine ⟨idle, ?_⟩
  rw [step_tick h]
  refine ⟨rfl, ?_, hrest⟩
  exact congrArg (fun todo => List.isEmpty todo = false) (todo_removeDead _ committed _) |>.mpr rfl

/-- After the grant and the first ticks. -/
def unreached [Unicode] : Nat → Liveness
  | 0 => pairStart.step (.grant "n2" .answered committed)
  | n + 1 => probed false (unreached n)

def renewing : List LivenessStep :=
  [.watch committed, .watch committed, .renew "n2" .answered committed]

theorem applier_unreached : letI := Unicode.ascii
    (unreached 0).fsm.applier = pair.applier ∧ (unreached 1).fsm.applier = pair.applier ∧
      (unreached 2).fsm.applier = pair.applier := ⟨rfl, rfl, rfl⟩

theorem run_missedPings : letI := Unicode.ascii
    Runs.run step pairStart missedPings = Runs.run step (unreached 3) renewing := by
  let := Unicode.ascii
  obtain ⟨h₀, h₁, h₂⟩ := applier_unreached
  rw [missedPings, Runs.run_cons, ← unreached, run_tickN2 h₀, ← unreached, run_tickN2 h₁,
    ← unreached, run_tickN2 h₂, ← unreached, renewing]

theorem may_renewing : letI := Unicode.ascii
    May pairStart (.grant "n2" .answered committed) ∧
      (unreached 0).todo.isEmpty ∧ (unreached 1).todo.isEmpty ∧ (unreached 2).todo.isEmpty ∧
      Runs.Along step May (unreached 3) renewing := by
  decide +kernel

theorem may_missedPings : letI := Unicode.ascii
    Runs.Along step May pairStart missedPings := by
  let := Unicode.ascii
  obtain ⟨h₀, h₁, h₂⟩ := applier_unreached
  obtain ⟨hgrant, hidle₀, hidle₁, hidle₂, hrenewing⟩ := may_renewing
  exact ⟨hgrant, along_tickN2 h₀ hidle₀ (along_tickN2 h₁ hidle₁ (along_tickN2 h₂ hidle₂ hrenewing))⟩

theorem end_missedPings : letI := Unicode.ascii
    let s := Runs.run step (unreached 3) renewing
    s.Settled ∧ s.Refreshed "n2" ∧ "n2" ≠ s.selfID ∧
      (s.fsm.applier.members.get "n2").map Member.status = some statusDead := by
  decide +kernel

theorem noneReturned_of_notes {s : Liveness} (ids : List String)
    (h : s.notes = ids.map .refreshed) : s.NoneReturned := by
  intro _ id m _ _ _ hmem
  rw [h] at hmem
  obtain ⟨_, _, hnote⟩ := List.mem_map.mp hmem
  cases hnote

end Liveness

open Liveness in
theorem renewed_member_stays_dead : letI := Unicode.ascii
    let s := Runs.run step pairStart missedPings
    Runs.Along step May pairStart missedPings ∧ s.Settled ∧ s.Refreshed "n2" ∧
      (s.fsm.applier.members.get "n2").map Member.status = some statusDead ∧
      ¬ Runs.Always step HoldersAlive pairStart missedPings := by
  obtain ⟨hsettled, hrefreshed, hother, hdead⟩ := end_missedPings
  rw [← run_missedPings] at hsettled hrefreshed hother hdead
  refine ⟨may_missedPings, hsettled, hrefreshed, hdead, fun always => ?_⟩
  obtain ⟨m, hm, hstatus⟩ := Option.map_eq_some_iff.mp hdead
  have halive := always.last hsettled "n2" m hm hother hrefreshed
  rw [hstatus] at halive
  exact absurd halive (by decide)

open Liveness in
/-- While nothing marks `n2` dead, it is alive. -/
theorem lease_holders_alive_renewing : letI := Unicode.ascii
    Runs.Always step HoldersAlive pairStart
      [.grant "n2" .answered committed, .tick, .renew "n2" .answered committed] := by
  refine (@lease_holders_alive_iff .ascii pair ⟨0, "n1", n1.address, [.joinAs 0 "n2" n2.address _],
    rfl⟩ (fun id m hm => ?_) _ _ _ _ _).mpr ?_
  · rw [members_pair] at hm
    split at hm
    · cases hm; rfl
    · split at hm
      · cases hm; rfl
      · cases hm
  · exact ⟨noneReturned_of_notes [] (by decide +kernel),
      noneReturned_of_notes ["n2"] (by decide +kernel),
      noneReturned_of_notes ["n2"] (by decide +kernel),
      noneReturned_of_notes ["n2", "n2"] (by decide +kernel)⟩

end Clusdr
