import Clusdr.Metatheory.LockTable
import Clusdr.Metatheory.LeaseTable

/-!
A grant that was released or has expired has no power. Its holder, or anybody
else, may still send commands that carry its token: as long as no snapshot from
before its end is restored, they fail and leave the table as it is.
-/

namespace Clusdr

open Go (Unicode)
open Fencing (Event Kept Register)

/-- A method that leaves its table alone or succeeds, where it fails. -/
theorem unchanged_of_error {T : Type} {t : T} {out : T × Except String Unit} {P : Prop} {e : String}
    (cases : out.1 = t ∨ out.2 = .ok () ∧ P) (failed : out.2 = .error e) :
    ∃ e, out = (t, .error e) := by
  refine ⟨e, Prod.ext (cases.resolve_right fun done => ?_) failed⟩
  cases failed.symm.trans done.1

variable [Unicode]

namespace Locks

/-- A run of the table from empty, with the snapshots it takes. -/
abbrev kept (es : List (Event Action (List Record))) : Kept Table Snapshot :=
  Runs.run archive.step ⟨.new, []⟩ es

/-- The action releases, or expires, the grant of `name` with this token. -/
def Table.Ended (t : Table) (name : String) (token : UInt64) : Action → Prop
  | .release n holder tok => n = name ∧ tok = token ∧ (t.release n holder tok).2 = .ok ()
  | .expire n tok => n = name ∧ tok = token ∧ (t.expire n tok).2.1 = true
  | _ => False

/-- Commands that carry the token do nothing but fail. -/
structure Table.Powerless (t : Table) (name : String) (token : UInt64) : Prop where
  release : ∀ holder, ∃ e, t.release name holder token = (t, .error e)
  renew : ∀ holder deadline ttl, ∃ e, t.renew name holder token deadline ttl = (t, .error e)
  expire : t.expire name token = (t, false, [])

theorem Table.ends_of_ended {t : Table} {name : String} {token : UInt64} {a : Action}
    (ended : t.Ended name token a) : ∃ g, t.view.grants.get name = some g ∧ g.token = token ∧
      a.ops.any (Register.ends name g) = true := by
  cases a with
  | release n holder tok =>
      obtain ⟨rfl, rfl, done⟩ := ended
      rw [(t.release_step n holder tok).2] at done
      obtain ⟨g, hg, htoken, hends⟩ := Register.ends_of_dropped fun why hwhy => by
        rw [hwhy] at done
        cases done
      exact ⟨g, hg, htoken, by simp [Action.ops, hends]⟩
  | expire n tok =>
      obtain ⟨rfl, rfl, dropped⟩ := ended
      rw [(t.expire_step n tok).2, Register.reply_expire] at dropped
      obtain ⟨g, hg, htoken⟩ := Option.any_eq_true _ _ |>.mp (Bool.and_eq_true_iff.mp dropped).2
      exact ⟨g, hg, of_decide_eq_true htoken,
        by simp [Action.ops, Register.ends, of_decide_eq_true htoken]⟩
  | acquire | renew | restore => cases ended

theorem Table.powerless_of_gone {t : Table} {name : String} {token : UInt64}
    (gone : Register.Gone name token t.view) : t.Powerless name token where
  release holder := by
    obtain ⟨why, hwhy⟩ := (Register.reply_of_gone (p := policy) gone holder ⟨0, 0⟩).1
    exact unchanged_of_error (t.release_cases 0 name holder token)
      ((t.release_step name holder token).2.trans (congrArg _ hwhy))
  renew holder deadline ttl := by
    obtain ⟨why, hwhy⟩ := (Register.reply_of_gone (p := policy) gone holder ⟨deadline, ttl⟩).2.1
    exact unchanged_of_error (t.renew_cases 0 name holder token deadline ttl)
      ((t.renew_step name holder token deadline ttl).2.trans (congrArg _ hwhy))
  expire := by
    refine (t.expire_cases 0 name token).resolve_right fun dropped => ?_
    rw [(t.expire_step name token).2, (Register.reply_of_gone gone "" ⟨0, 0⟩).2.2] at dropped
    cases dropped.1

end Locks

namespace Leases

/-- A run of the table from empty, with the snapshots it takes. -/
abbrev kept (es : List (Event Action (List Record))) : Kept Table Snapshot :=
  Runs.run archive.step ⟨.new, []⟩ es

/-- The action revokes, or expires, the grant of `name` with this token. -/
def Table.Ended (t : Table) (name : String) (token : UInt64) : Action → Prop
  | .revoke n owner tok => n = name ∧ tok = token ∧ (t.revoke n owner tok).2.1 = .ok ()
  | .expire n tok => n = name ∧ tok = token ∧ (t.expire n tok).2.1 = true
  | _ => False

/-- Commands that carry the token do nothing but fail. -/
structure Table.Powerless (t : Table) (name : String) (token : UInt64) : Prop where
  revoke : ∀ owner, ∃ e, t.revoke name owner token = (t, .error e, [])
  renew : ∀ owner deadline ttl, ∃ e, t.renew name owner token deadline ttl = (t, .error e)
  expire : t.expire name token = (t, false, [])

theorem Table.ends_of_ended {t : Table} {name : String} {token : UInt64} {a : Action}
    (ended : t.Ended name token a) : ∃ g, t.view.grants.get name = some g ∧ g.token = token ∧
      a.ops.any (Register.ends name g) = true := by
  cases a with
  | revoke n owner tok =>
      obtain ⟨rfl, rfl, done⟩ := ended
      rw [(t.revoke_step n owner tok).2] at done
      obtain ⟨g, hg, htoken, hends⟩ := Register.ends_of_dropped fun why hwhy => by
        rw [hwhy] at done
        cases done
      exact ⟨g, hg, htoken, by simp [Action.ops, hends]⟩
  | expire n tok =>
      obtain ⟨rfl, rfl, dropped⟩ := ended
      rw [(t.expire_step n tok).2, Register.reply_expire] at dropped
      obtain ⟨g, hg, htoken⟩ := Option.any_eq_true _ _ |>.mp (Bool.and_eq_true_iff.mp dropped).2
      exact ⟨g, hg, of_decide_eq_true htoken,
        by simp [Action.ops, Register.ends, of_decide_eq_true htoken]⟩
  | grant | renew | restore => cases ended

theorem Table.powerless_of_gone {t : Table} {name : String} {token : UInt64}
    (gone : Register.Gone name token t.view) : t.Powerless name token where
  revoke owner := by
    obtain ⟨why, hwhy⟩ := (Register.reply_of_gone (p := policy) gone owner ⟨0, 0⟩).1
    have hres := (t.revoke_step name owner token).2.trans (congrArg _ hwhy)
    rcases t.revoke_cases 0 name owner token with ⟨hsame, hsilent⟩ | ⟨hok, -⟩
    · exact ⟨_, Prod.ext hsame (Prod.ext hres hsilent)⟩
    · cases hres.symm.trans hok
  renew owner deadline ttl := by
    obtain ⟨why, hwhy⟩ := (Register.reply_of_gone (p := policy) gone owner ⟨deadline, ttl⟩).2.1
    exact unchanged_of_error (t.renew_cases 0 name owner token deadline ttl)
      ((t.renew_step name owner token deadline ttl).2.trans (congrArg _ hwhy))
  expire := by
    refine (t.expire_cases 0 name token).resolve_right fun dropped => ?_
    rw [(t.expire_step name token).2, (Register.reply_of_gone gone "" ⟨0, 0⟩).2.2] at dropped
    cases dropped.1

end Leases

/-- Once a lock or a lease has been released or has expired, its token opens nothing
any more, if the snapshots restored since were taken since. -/
theorem ended_grant_powerless :
    (∀ (before after : List (Event Locks.Action (List Locks.Record))) (a : Locks.Action)
        (name : String) (token : UInt64),
      Runs.Along Locks.archive.step Locks.archive.May ⟨.new, []⟩ (before ++ .act a :: after) →
      (Locks.archive.newTokens ⟨.new, []⟩ (before ++ .act a :: after)).length < 2 ^ 64 →
      (Locks.kept before).state.Ended name token a →
      (∀ e ∈ after, e.After (Locks.kept before).saved.length) →
      (Locks.kept (before ++ .act a :: after)).state.Powerless name token) ∧
    ∀ (before after : List (Event Leases.Action (List Leases.Record))) (a : Leases.Action)
        (name : String) (token : UInt64),
      Runs.Along Leases.archive.step Leases.archive.May ⟨.new, []⟩ (before ++ .act a :: after) →
      (Leases.archive.newTokens ⟨.new, []⟩ (before ++ .act a :: after)).length < 2 ^ 64 →
      (Leases.kept before).state.Ended name token a →
      (∀ e ∈ after, e.After (Leases.kept before).saved.length) →
      (Leases.kept (before ++ .act a :: after)).state.Powerless name token := by
  constructor
  · intro before after a name token may few ended later
    obtain ⟨g, held, rfl, ends⟩ := Locks.Table.ends_of_ended ended
    exact Locks.Table.powerless_of_gone
      (Locks.archive.gone_after Locks.keyed_new Locks.view_new may few held ends later)
  · intro before after a name token may few ended later
    obtain ⟨g, held, rfl, ends⟩ := Leases.Table.ends_of_ended ended
    exact Leases.Table.powerless_of_gone
      (Leases.archive.gone_after Leases.keyed_new Leases.view_new may few held ends later)

def heldJob : Locks.Record := ⟨"job", "a", 1, 5, 10, 1⟩

/-- A lock is saved while it is held, released, and held again once the snapshot is
restored. -/
def rolledBack : List (Event Locks.Action (List Locks.Record)) :=
  [.act (.acquire 5 "job" "a" 10 1), .save [heldJob], .act (.release "job" "a" 1), .restore 0]

omit [Unicode] in
theorem older_snapshot_revives_grant : letI := Unicode.ascii
    Runs.Along Locks.archive.step Locks.archive.May ⟨.new, []⟩ rolledBack ∧
      (Locks.archive.newTokens ⟨.new, []⟩ rolledBack).length < 2 ^ 64 ∧
      (Locks.kept (rolledBack.take 2)).state.Ended "job" 1 (.release "job" "a" 1) ∧
      ((Locks.kept rolledBack).state.release "job" "a" 1).2 = .ok () := by
  let := Unicode.ascii
  exact ⟨⟨trivial, rfl, trivial, Nat.zero_lt_one, trivial⟩, by decide, ⟨rfl, rfl, by decide⟩,
    by decide⟩

/-- A lock and a lease end, the tables are saved and restored, and others take them. -/
def handedOver : List (Event Locks.Action (List Locks.Record)) :=
  [.save [], .restore 1, .act (.acquire 8 "job" "c" 30 1)]

def passedOn : List (Event Leases.Action (List Leases.Record)) :=
  [.save [], .restore 0, .act (.grant 8 "w" "a" 30 1)]

omit [Unicode] in
theorem ended_grant_powerless_handed_over : letI := Unicode.ascii
    (Locks.kept ([.act (.acquire 5 "job" "a" 10 1), .save [heldJob]] ++
        .act (.release "job" "a" 1) :: handedOver)).state.Powerless "job" 1 ∧
      (Leases.kept ([.act (.grant 5 "w" "a" 10 1)] ++
        .act (.expire "w" 1) :: passedOn)).state.Powerless "w" 1 := by
  let := Unicode.ascii
  obtain ⟨locks, leases⟩ := ended_grant_powerless
  refine ⟨locks _ _ _ _ _ ?_ (by decide) ⟨rfl, rfl, by decide⟩ ?_,
    leases _ _ _ _ _ ?_ (by decide) ⟨rfl, rfl, by decide⟩ ?_⟩
  · exact ⟨trivial, rfl, trivial, rfl, Nat.one_lt_two, trivial, trivial⟩
  · simp only [handedOver, List.forall_mem_cons]
    exact ⟨trivial, Nat.le_refl 1, trivial, fun _ h => by cases h⟩
  · exact ⟨trivial, trivial, rfl, Nat.zero_lt_one, trivial, trivial⟩
  · simp only [passedOn, List.forall_mem_cons]
    exact ⟨trivial, Nat.le_refl 0, trivial, fun _ h => by cases h⟩

end Clusdr
