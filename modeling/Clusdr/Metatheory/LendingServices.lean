import Clusdr.Core.SdkCalls
import Clusdr.Metatheory.HolderIdentity

/-!
The services a client calls, seen from the tables. A leader that serves an attempt takes
the name from its table for the holder of the request, or does nothing, and tells the
client of a grant only if there is one; a release it commits gives the grant back. Neither
touches the other table.
-/

namespace Clusdr.Sdk

open Go (Unicode)
open Fencing (Op Register)
open Consensus (Command Fsm Half Submission leaseHalf lockHalf)

variable [Unicode] {S : Type} {svc : Service S} {half : Half}

/-- A submission that is not refused by Raft acts on the table. -/
theorem register_committed {cmd : Command} {o : Op String String Lifetime}
    (hop : half.op cmd = some o) {f : Fsm} {r : Register String String Lifetime}
    (hr : half.register f = some r) {sub : Submission} (committed : sub.outcome = .committed) :
    half.register (f.applyLock sub cmd).1 = some (Register.step half.policy r o).1 := by
  rw [Fsm.applyLock_committed (half.known cmd o hop) committed
    (half.responds f sub.appliedAt cmd o hop), half.acts f sub.appliedAt cmd o hop, hr,
    Option.map_some]

theorem register_idle {cmd : Command} (known : cmd.kind ∈ Consensus.CommandKind.known)
    (hop : half.op cmd = none) (f : Fsm) (sub : Submission) :
    half.register (f.applyLock sub cmd).1 = half.register f := by
  rcases Fsm.applyLock_state known f sub with h | h
  · rw [h]
  · rw [h, half.idle f sub.appliedAt cmd hop]

/-- The attempt did not reach the table and was not granted, or the table took it and the
answer is the table's if it is a grant. -/
def Attempted (half : Half) (r : Register String String Lifetime) (name holder : String)
    (out : Fsm × Except Rpc.Status (UInt64 × Bool)) : Prop :=
  (half.register out.1 = some r ∧ ∀ t, out.2 ≠ .ok (t, true)) ∨
    ∃ d, half.register out.1 = some (Register.step half.policy r (.take name holder d)).1 ∧
      ∀ t, out.2 = .ok (t, true) →
        (Register.step half.policy r (.take name holder d)).2 = .taken t

theorem attempted_applyAcquire {cmd : Command} {name holder : String} {d : Lifetime}
    (hop : half.op cmd = some (.take name holder d)) {f : Fsm}
    {r : Register String String Lifetime} (hr : half.register f = some r) (sub : Submission)
    (told : String → Rpc.Status) :
    Attempted half r name holder
      ((f.applyAcquire sub cmd).1, (f.applyAcquire sub cmd).2.mapError told) := by
  by_cases hgranted : ∃ t, (f.applyAcquire sub cmd).2 = .ok (t, true)
  · obtain ⟨t, ht⟩ := hgranted
    obtain ⟨r', hr', hafter, htaken⟩ := half.acquire_taken hop ht
    cases hr.symm.trans hr'
    refine .inr ⟨d, hafter, fun u hu => ?_⟩
    cases ht.symm.trans (mapError_eq_ok.mp hu)
    exact htaken
  · have hnone : ∀ t, (f.applyAcquire sub cmd).2.mapError told ≠ .ok (t, true) :=
      fun t ht => hgranted ⟨t, mapError_eq_ok.mp ht⟩
    rcases Fsm.applyLock_state (half.known cmd _ hop) f sub with h | h
    · exact .inl ⟨(congrArg half.register h).trans hr, hnone⟩
    · refine .inr ⟨d, (congrArg half.register h).trans ?_, fun t ht => absurd ht (hnone t)⟩
      rw [half.acts f sub.appliedAt cmd _ hop, hr, Option.map_some]

/-- The service lends from this table, for the holders that requests name. -/
structure Lends (svc : Service S) (half : Half) : Prop where
  holder : ∀ s h, h ≠ "" → svc.holder s h = h
  held : ∀ f name, svc.held f name = (half.grant f name).map fun g => (g.holder, g.token)
  attempt : ∀ s f sub blocking name holder ttlMs r, svc.leads s → holder ≠ "" →
    half.register f = some r →
    Attempted half r name holder (svc.attempt s f sub blocking name holder ttlMs)
  release : ∀ s f sub name holder token r, svc.leads s → holder ≠ "" →
    sub.outcome = .committed → half.register f = some r →
    half.register (svc.release s f sub name holder token).1 =
      some (Register.step half.policy r (.drop name holder token)).1

/-- The service leaves the other table alone. -/
structure Spares (svc : Service S) (half : Half) : Prop where
  attempt : ∀ s f sub blocking name holder ttlMs, svc.leads s →
    half.register (svc.attempt s f sub blocking name holder ttlMs).1 = half.register f
  release : ∀ s f sub name holder token, svc.leads s →
    half.register (svc.release s f sub name holder token).1 = half.register f

theorem lockCalls_lends : Lends lockCalls lockHalf where
  holder s h named := if_pos named
  held f name := by
    rw [← Fsm.lockGrant_eq, Fsm.lockGrant, Option.map_map]
    rfl
  attempt s f sub blocking name holder ttlMs r leads named hr := by
    obtain ⟨op, hserve⟩ := LockCall.serve_eq leads f sub ⟨blocking, name, holder, ttlMs⟩
    have hholder : s.holder holder = holder := if_pos named
    rw [hholder] at hserve
    rw [show lockCalls.attempt s f sub blocking name holder ttlMs = _ from hserve]
    exact attempted_applyAcquire rfl hr sub _
  release s f sub name holder token r leads named committed hr := by
    have hholder : s.holder holder = holder := if_pos named
    rw [show (lockCalls.release s f sub name holder token).1 = _ from
      LockService.unlock_fst leads f sub ⟨name, holder, token⟩, hholder]
    exact register_committed rfl hr committed

theorem leaseCalls_lends : Lends leaseCalls leaseHalf where
  holder s h named := if_pos named
  held f name := by
    rw [← Fsm.leaseGrant_eq, Fsm.leaseGrant, Option.map_map]
    rfl
  attempt s f sub blocking name owner ttlMs r leads named hr := by
    have howner : s.owner owner = owner := if_pos named
    have hserve := LeaseService.grant_eq leads f sub ⟨name, owner, ttlMs⟩
    rw [howner] at hserve
    rw [show leaseCalls.attempt s f sub blocking name owner ttlMs = _ from hserve]
    exact attempted_applyAcquire rfl hr sub _
  release s f sub name owner token r leads named committed hr := by
    have howner : s.owner owner = owner := if_pos named
    rw [show (leaseCalls.release s f sub name owner token).1 = _ from
      LeaseService.revoke_fst leads f sub ⟨name, owner, token⟩, howner]
    exact register_committed rfl hr committed

theorem lockCalls_spares : Spares lockCalls leaseHalf where
  attempt s f sub blocking name holder ttlMs leads := by
    obtain ⟨op, hserve⟩ := LockCall.serve_eq leads f sub ⟨blocking, name, holder, ttlMs⟩
    rw [show lockCalls.attempt s f sub blocking name holder ttlMs = _ from hserve]
    exact register_idle (by simp [Fsm.stamped, Consensus.CommandKind.known]) rfl f sub
  release s f sub name holder token leads := by
    rw [show (lockCalls.release s f sub name holder token).1 = _ from
      LockService.unlock_fst leads f sub ⟨name, holder, token⟩]
    exact register_idle (by simp [Consensus.CommandKind.known]) rfl f sub

theorem leaseCalls_spares : Spares leaseCalls lockHalf where
  attempt s f sub blocking name owner ttlMs leads := by
    rw [show leaseCalls.attempt s f sub blocking name owner ttlMs = _ from
      LeaseService.grant_eq leads f sub ⟨name, owner, ttlMs⟩]
    exact register_idle (by simp [Fsm.stamped, Consensus.CommandKind.known]) rfl f sub
  release s f sub name owner token leads := by
    rw [show (leaseCalls.release s f sub name owner token).1 = _ from
      LeaseService.revoke_fst leads f sub ⟨name, owner, token⟩]
    exact register_idle (by simp [Consensus.CommandKind.known]) rfl f sub

end Clusdr.Sdk
