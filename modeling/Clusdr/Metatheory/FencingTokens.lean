import Clusdr.Metatheory.LockTable
import Clusdr.Metatheory.LeaseTable

/-!
Fencing tokens never repeat and never go back, on either table, over any run of
commands and restores of the table's own snapshots.
-/

namespace Clusdr

open Go (Unicode)
open Fencing (Register Simulation)

variable [Unicode]

namespace Locks

/-- Runs of the lock table from empty. -/
def RunFromEmpty (as : List Action) : Prop := simulation.Admissible Table.new as

def tableAfter (as : List Action) : Table := simulation.run Table.new as

/-- The tokens of the grants a run creates, oldest first. -/
def createdTokens (as : List Action) : List UInt64 :=
  simulation.collect Table.created Table.new as

theorem createdTokens_eq {as : List Action} (h : RunFromEmpty as) :
    createdTokens as =
      Register.mintedAll policy (simulation.view Table.new) (simulation.opsOf as) :=
  simulation.collect_minted Table.created (fun t a _ _ => t.created_minted a) keyed_new h

theorem createdTokens_ascending {as : List Action} (h : RunFromEmpty as)
    (few : (createdTokens as).length < 2 ^ 64) : (createdTokens as).Pairwise (· < ·) := by
  rw [createdTokens_eq h] at few ⊢
  exact (Register.mintedAll_ascending (simulation.unwrapped_of_few view_new few)).1

end Locks

namespace Leases

/-- Runs of the lease table from empty. -/
def RunFromEmpty (as : List Action) : Prop := simulation.Admissible Table.new as

def tableAfter (as : List Action) : Table := simulation.run Table.new as

/-- The tokens of the grants a run creates, oldest first. -/
def createdTokens (as : List Action) : List UInt64 :=
  simulation.collect Table.created Table.new as

theorem createdTokens_eq {as : List Action} (h : RunFromEmpty as) :
    createdTokens as =
      Register.mintedAll policy (simulation.view Table.new) (simulation.opsOf as) :=
  simulation.collect_minted Table.created (fun t a _ _ => t.created_minted a) keyed_new h

theorem createdTokens_ascending {as : List Action} (h : RunFromEmpty as)
    (few : (createdTokens as).length < 2 ^ 64) : (createdTokens as).Pairwise (· < ·) := by
  rw [createdTokens_eq h] at few ⊢
  exact (Register.mintedAll_ascending (simulation.unwrapped_of_few view_new few)).1

end Leases

/-- Every new grant gets a token above those of all grants created before it,
live or gone, on the lock table and on the lease table. -/
theorem new_grant_exceeds_all_earlier (locks : List Locks.Action) (leases : List Leases.Action)
    (hlocks : Locks.RunFromEmpty locks) (hleases : Leases.RunFromEmpty leases)
    (fewLocks : (Locks.createdTokens locks).length < 2 ^ 64)
    (fewLeases : (Leases.createdTokens leases).length < 2 ^ 64) :
    (Locks.createdTokens locks).Pairwise (· < ·) ∧
      (Leases.createdTokens leases).Pairwise (· < ·) :=
  ⟨Locks.createdTokens_ascending hlocks fewLocks,
    Leases.createdTokens_ascending hleases fewLeases⟩

/-- Two locks, a repeated acquire, a release, a snapshot restored, a new holder. -/
def handoverRun : List Locks.Action :=
  [.acquire 5 "job" "a" 10 1, .acquire 6 "db" "b" 10 1, .acquire 7 "job" "a" 20 1,
    .release "job" "a" 1, .restore [⟨"db", "b", 2, 6, 10, 1⟩], .acquire 8 "job" "c" 30 1]

def releaseRun : List Leases.Action :=
  [.grant 5 "w" "a" 10 1, .expire "w" 1, .restore [], .grant 8 "w" "a" 30 1]

omit [Unicode] in
theorem new_grant_exceeds_all_earlier_handover : letI := Unicode.ascii
    (Locks.createdTokens handoverRun = [1, 2, 3] ∧
        (Locks.createdTokens handoverRun).Pairwise (· < ·)) ∧
      Leases.createdTokens releaseRun = [1, 2] ∧
        (Leases.createdTokens releaseRun).Pairwise (· < ·) := by
  have hlocks : @Locks.createdTokens .ascii handoverRun = [1, 2, 3] := by decide
  have hleases : @Leases.createdTokens .ascii releaseRun = [1, 2] := by decide
  obtain ⟨ascLocks, ascLeases⟩ := @new_grant_exceeds_all_earlier .ascii handoverRun releaseRun
    ⟨trivial, trivial, trivial, trivial, rfl, trivial, trivial⟩
    ⟨trivial, trivial, rfl, trivial, trivial⟩
    (by rw [hlocks]; decide) (by rw [hleases]; decide)
  exact ⟨⟨hlocks, ascLocks⟩, hleases, ascLeases⟩

end Clusdr
