import Clusdr.Fencing.Exclusion
import Clusdr.Metatheory.TableInvariant

/-!
Retried acquires. A grant that is neither released nor expired answers every
further acquire of its name with its own token, whatever other commands come in
between and however full the table is; its lifetime is that of the last acquire
or renewal by its holder.
-/

namespace Clusdr

open Go (Time Duration Unicode)
open Fencing (Grant Register Simulation)

variable [Unicode]

namespace Locks

/-- The lifetime a command gives the grant of `name` to `holder` with this token. -/
def Action.refreshes (name holder : String) (token : UInt64) : Action → Option Lifetime
  | .acquire _ n h deadline ttl => if n = name ∧ h = holder then some ⟨deadline, ttl⟩ else none
  | .renew n h tok deadline ttl =>
      if n = name ∧ h = holder ∧ tok = token then some ⟨deadline, ttl⟩ else none
  | _ => none

theorem get_granted {t : Table} {now : Time} {name holder : String} {deadline : Time}
    {ttl : Duration} {token : UInt64}
    (granted : (t.acquire now name holder deadline ttl).2 = .ok (token, true)) :
    (t.acquire now name holder deadline ttl).1.view.grants.get name =
      some ⟨holder, token, ⟨deadline, ttl⟩⟩ := by
  obtain ⟨hview, hreply⟩ := t.acquire_step now name holder deadline ttl
  rw [hview]
  exact Register.get_of_taken (Table.taken_of_ok (hreply.symm.trans granted))

/-- A command that does not end the grant. -/
def Action.Spares (name holder : String) (token : UInt64) (a : Action) : Prop :=
  a ≠ .release name holder token ∧ a ≠ .expire name token

theorem any_ends_of_spared {name holder : String} {token : UInt64} {as : List Action}
    (spared : ∀ a ∈ as, a.Spares name holder token) (data : Lifetime) :
    (simulation.opsOf as).any (Register.ends name ⟨holder, token, data⟩) = false := by
  refine List.any_eq_false.mpr fun op hop => ?_
  obtain ⟨a, ha, hop⟩ := List.mem_flatMap.mp hop
  have hspared := spared a ha
  cases a with
  | release | expire =>
      obtain rfl := List.mem_singleton.mp hop
      simpa [Register.ends, Action.Spares] using hspared
  | acquire | renew =>
      obtain rfl := List.mem_singleton.mp hop
      exact Bool.false_ne_true
  | restore => cases hop

theorem filterMap_refreshes (name holder : String) (token : UInt64) (data : Lifetime)
    (as : List Action) :
    (simulation.opsOf as).filterMap (Register.refreshed name ⟨holder, token, data⟩) =
      as.filterMap (Action.refreshes name holder token) := by
  rw [← List.map_id ((simulation.opsOf as).filterMap _)]
  refine simulation.filterMap_opsOf (fun a => ?_) as
  cases a with
  | acquire | renew =>
      simp only [simulation, Action.ops, Register.refreshed, Action.refreshes, List.filterMap_cons,
        List.filterMap_nil]
      split_ifs <;> rfl
  | release | expire | restore =>
      simp [simulation, Action.ops, Register.refreshed, Action.refreshes]

/-- What a run from `s` leaves of the grant of `name` with this token, and what it
answers on the way: the record keeps holder and token and has the last lifetime, each
acquire of the name is answered with the token, and only the holder's renewals succeed. -/
structure Table.Keeps (s : Table) (name holder : String) (token : UInt64) (first : Lifetime)
    (as : List Action) : Prop where
  record : ∃ rec, (simulation.run s as).get name = some rec ∧ rec.holder = holder ∧
    rec.token = token ∧ ⟨rec.deadline, rec.ttl⟩ =
      ((as.filterMap (Action.refreshes name holder token)).getLast?).getD first
  again : ∀ before after now deadline ttl,
    as = before ++ .acquire now name holder deadline ttl :: after →
      ((simulation.run s before).acquire now name holder deadline ttl).2 = .ok (token, true)
  other : ∀ before after now holder' deadline ttl,
    as = before ++ .acquire now name holder' deadline ttl :: after → holder' ≠ "" →
      holder' ≠ holder →
        ((simulation.run s before).acquire now name holder' deadline ttl).2 = .ok (token, false)
  renewed : ∀ before after holder' token' deadline ttl,
    as = before ++ .renew name holder' token' deadline ttl :: after →
      (((simulation.run s before).renew name holder' token' deadline ttl).2 = .ok () ↔
        holder' = holder ∧ token' = token)

theorem keeps_of_spared {t : Table} (reached : Reachable (fun _ _ => True) t) {now : Time}
    {name holder : String} {deadline : Time} {ttl : Duration} {token : UInt64}
    (granted : (t.acquire now name holder deadline ttl).2 = .ok (token, true)) {as : List Action}
    (may : simulation.Admissible (t.acquire now name holder deadline ttl).1 as)
    (spared : ∀ a ∈ as, a.Spares name holder token) :
    (t.acquire now name holder deadline ttl).1.Keeps name holder token ⟨deadline, ttl⟩ as := by
  have hmay : simulation.may t (.acquire now name holder deadline ttl) := trivial
  obtain ⟨keyed, admitted⟩ := archive.admitted_of_reachable keyed_new view_new
    (.act reached hmay trivial)
  have hheld := get_granted granted
  have named : holder ≠ "" := of_decide_eq_true (admitted.holder name _ hheld)
  have holds := simulation.holds_of_spared keyed admitted hheld may (any_ends_of_spared spared _)
  refine ⟨?_, fun before after now' deadline' ttl' split => ?_,
    fun before after now' holder' deadline' ttl' split named' other => ?_,
    fun before after holder' token' deadline' ttl' split => ?_⟩
  · have last := holds.last
    rw [filterMap_refreshes] at last
    obtain ⟨rec, hrec, hgrant⟩ := Option.map_eq_some_iff.mp ((Table.view_get _ _).symm.trans last)
    exact ⟨rec, hrec, congrArg Grant.holder hgrant, congrArg Grant.token hgrant,
      congrArg Grant.data hgrant⟩
  · have hreply := holds.take before _ holder ⟨deadline', ttl'⟩ split (decide_eq_true named)
    exact (Table.acquire_step ..).2.trans (congrArg _ (hreply.trans (if_pos rfl)))
  · have hreply := holds.take before _ holder' ⟨deadline', ttl'⟩ split (decide_eq_true named')
    exact (Table.acquire_step ..).2.trans (congrArg _ (hreply.trans (if_neg (Ne.symm other))))
  · rw [(Table.renew_step ..).2]
    refine (iff_of_eq (congrArg (Table.doneResult name · = .ok ())
      (holds.renew before _ holder' token' _ split))).trans ?_
    rw [eq_comm (a := holder'), eq_comm (a := token')]
    split_ifs with hown
    · exact iff_of_true rfl hown
    · exact iff_of_false nofun hown

end Locks

namespace Leases

/-- The lifetime a command gives the grant of `name` to `owner` with this token. -/
def Action.refreshes (name owner : String) (token : UInt64) : Action → Option Lifetime
  | .grant _ n h deadline ttl => if n = name ∧ h = owner then some ⟨deadline, ttl⟩ else none
  | .renew n h tok deadline ttl =>
      if n = name ∧ h = owner ∧ tok = token then some ⟨deadline, ttl⟩ else none
  | _ => none

theorem get_granted {t : Table} {now : Time} {name owner : String} {deadline : Time}
    {ttl : Duration} {token : UInt64}
    (granted : (t.grant now name owner deadline ttl).2.1 = .ok (token, true)) :
    (t.grant now name owner deadline ttl).1.view.grants.get name =
      some ⟨owner, token, ⟨deadline, ttl⟩⟩ := by
  obtain ⟨hview, hreply⟩ := t.grant_step now name owner deadline ttl
  rw [hview]
  exact Register.get_of_taken (Table.taken_of_ok (hreply.symm.trans granted))

/-- A command that does not end the grant. -/
def Action.Spares (name owner : String) (token : UInt64) (a : Action) : Prop :=
  a ≠ .revoke name owner token ∧ a ≠ .expire name token

theorem any_ends_of_spared {name owner : String} {token : UInt64} {as : List Action}
    (spared : ∀ a ∈ as, a.Spares name owner token) (data : Lifetime) :
    (simulation.opsOf as).any (Register.ends name ⟨owner, token, data⟩) = false := by
  refine List.any_eq_false.mpr fun op hop => ?_
  obtain ⟨a, ha, hop⟩ := List.mem_flatMap.mp hop
  have hspared := spared a ha
  cases a with
  | revoke | expire =>
      obtain rfl := List.mem_singleton.mp hop
      simpa [Register.ends, Action.Spares] using hspared
  | grant | renew =>
      obtain rfl := List.mem_singleton.mp hop
      exact Bool.false_ne_true
  | restore => cases hop

theorem filterMap_refreshes (name owner : String) (token : UInt64) (data : Lifetime)
    (as : List Action) :
    (simulation.opsOf as).filterMap (Register.refreshed name ⟨owner, token, data⟩) =
      as.filterMap (Action.refreshes name owner token) := by
  rw [← List.map_id ((simulation.opsOf as).filterMap _)]
  refine simulation.filterMap_opsOf (fun a => ?_) as
  cases a with
  | grant | renew =>
      simp only [simulation, Action.ops, Register.refreshed, Action.refreshes, List.filterMap_cons,
        List.filterMap_nil]
      split_ifs <;> rfl
  | revoke | expire | restore =>
      simp [simulation, Action.ops, Register.refreshed, Action.refreshes]

/-- What a run from `s` leaves of the grant of `name` with this token, and what it
answers on the way: the record keeps owner and token and has the last lifetime, each
grant of the name is answered with the token, and only the owner's renewals succeed. -/
structure Table.Keeps (s : Table) (name owner : String) (token : UInt64) (first : Lifetime)
    (as : List Action) : Prop where
  record : ∃ rec, (simulation.run s as).get name = some rec ∧ rec.owner = owner ∧
    rec.token = token ∧ ⟨rec.deadline, rec.ttl⟩ =
      ((as.filterMap (Action.refreshes name owner token)).getLast?).getD first
  again : ∀ before after now deadline ttl,
    as = before ++ .grant now name owner deadline ttl :: after →
      ((simulation.run s before).grant now name owner deadline ttl).2.1 = .ok (token, true)
  other : ∀ before after now owner' deadline ttl,
    as = before ++ .grant now name owner' deadline ttl :: after → owner' ≠ "" →
      owner' ≠ owner →
        ((simulation.run s before).grant now name owner' deadline ttl).2.1 = .ok (token, false)
  renewed : ∀ before after owner' token' deadline ttl,
    as = before ++ .renew name owner' token' deadline ttl :: after →
      (((simulation.run s before).renew name owner' token' deadline ttl).2 = .ok () ↔
        owner' = owner ∧ token' = token)

theorem keeps_of_spared {t : Table} (reached : Reachable (fun _ _ => True) t) {now : Time}
    {name owner : String} {deadline : Time} {ttl : Duration} {token : UInt64}
    (granted : (t.grant now name owner deadline ttl).2.1 = .ok (token, true)) {as : List Action}
    (may : simulation.Admissible (t.grant now name owner deadline ttl).1 as)
    (spared : ∀ a ∈ as, a.Spares name owner token) :
    (t.grant now name owner deadline ttl).1.Keeps name owner token ⟨deadline, ttl⟩ as := by
  have hmay : simulation.may t (.grant now name owner deadline ttl) := trivial
  obtain ⟨keyed, admitted⟩ := archive.admitted_of_reachable keyed_new view_new
    (.act reached hmay trivial)
  have hheld := get_granted granted
  have named : owner ≠ "" := of_decide_eq_true (admitted.holder name _ hheld)
  have holds := simulation.holds_of_spared keyed admitted hheld may (any_ends_of_spared spared _)
  refine ⟨?_, fun before after now' deadline' ttl' split => ?_,
    fun before after now' owner' deadline' ttl' split named' other => ?_,
    fun before after owner' token' deadline' ttl' split => ?_⟩
  · have last := holds.last
    rw [filterMap_refreshes] at last
    obtain ⟨rec, hrec, hgrant⟩ := Option.map_eq_some_iff.mp ((Table.view_get _ _).symm.trans last)
    exact ⟨rec, hrec, congrArg Grant.holder hgrant, congrArg Grant.token hgrant,
      congrArg Grant.data hgrant⟩
  · have hreply := holds.take before _ owner ⟨deadline', ttl'⟩ split (decide_eq_true named)
    exact (Table.grant_step ..).2.trans (congrArg _ (hreply.trans (if_pos rfl)))
  · have hreply := holds.take before _ owner' ⟨deadline', ttl'⟩ split (decide_eq_true named')
    exact (Table.grant_step ..).2.trans (congrArg _ (hreply.trans (if_neg (Ne.symm other))))
  · rw [(Table.renew_step ..).2]
    refine (iff_of_eq (congrArg (Table.doneResult name · = .ok ())
      (holds.renew before _ owner' token' _ split))).trans ?_
    rw [eq_comm (a := owner'), eq_comm (a := token')]
    split_ifs with hown
    · exact iff_of_true rfl hown
    · exact iff_of_false nofun hown

end Leases

/-- From a reachable table that has just granted a name, every run that neither
releases nor expires that grant keeps it: its token answers every further acquire of
the name. -/
theorem retried_acquire_keeps_grant :
    (∀ t now name holder deadline ttl token as, Locks.Reachable (fun _ _ => True) t →
      (t.acquire now name holder deadline ttl).2 = .ok (token, true) →
      Locks.simulation.Admissible (t.acquire now name holder deadline ttl).1 as →
      (∀ a ∈ as, a.Spares name holder token) →
        (t.acquire now name holder deadline ttl).1.Keeps name holder token ⟨deadline, ttl⟩ as) ∧
    (∀ t now name owner deadline ttl token as, Leases.Reachable (fun _ _ => True) t →
      (t.grant now name owner deadline ttl).2.1 = .ok (token, true) →
      Leases.simulation.Admissible (t.grant now name owner deadline ttl).1 as →
      (∀ a ∈ as, a.Spares name owner token) →
        (t.grant now name owner deadline ttl).1.Keeps name owner token ⟨deadline, ttl⟩ as) :=
  ⟨fun _ _ _ _ _ _ _ _ reached granted may spared =>
      Locks.keeps_of_spared reached granted may spared,
    fun _ _ _ _ _ _ _ _ reached granted may spared =>
      Leases.keeps_of_spared reached granted may spared⟩

omit [Unicode] in
/-- A retry, a rival, a renewal and a stale release of another token. -/
theorem retried_acquire_keeps_grant_contended : letI := Unicode.ascii
    (Locks.Table.new.acquire 0 "job" "a" 10 1).1.Keeps "job" "a" 1 ⟨10, 1⟩
        [.acquire 2 "job" "a" 12 2, .acquire 3 "job" "b" 20 1, .renew "job" "a" 1 14 4,
          .release "job" "a" 7, .expire "free" 1, .acquire 5 "job" "a" 18 3] ∧
      (Leases.Table.new.grant 0 "job" "a" 10 1).1.Keeps "job" "a" 1 ⟨10, 1⟩
        [.grant 2 "job" "a" 12 2, .grant 3 "job" "b" 20 1, .renew "job" "b" 1 14 4,
          .revoke "job" "b" 1, .expire "job" 9] := by
  let := Unicode.ascii
  obtain ⟨locks, leases⟩ := retried_acquire_keeps_grant
  refine ⟨locks _ _ _ _ _ _ _ _ .new (by decide) ?_ ?_,
    leases _ _ _ _ _ _ _ _ .new (by decide) ?_ ?_⟩
  · exact ⟨trivial, trivial, trivial, trivial, trivial, trivial, trivial⟩
  · simp [Locks.Action.Spares]
  · exact ⟨trivial, trivial, trivial, trivial, trivial, trivial⟩
  · simp [Leases.Action.Spares]

end Clusdr
