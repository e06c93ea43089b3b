import Clusdr.Metatheory.FencingTokens
import Clusdr.Metatheory.TableEntries

/-!
The expirer decides at a scan and its decision is applied later, through the
log. The applied command carries only a token, and neither a renewal nor a
repeated acquire changes the token: a grant refreshed in between is dropped
with its new deadline. The scan's decision is still right exactly when the last
refresh in between does not reach past the scan, or the grant ended by itself.
-/

namespace Clusdr

open Go (Time Unicode)
open Fencing (Grant Policy Register Simulation)

/-- A scan of the register lists what is due then. -/
def dueTokens (r : Register String String Lifetime) (s : Time) : List (String × UInt64) :=
  (dueEntries r s).map fun e => (e.1, e.2.token)

theorem due_of_listed {r : Register String String Lifetime} {s : Time} {name : String}
    {token : UInt64} {g : Grant String Lifetime} (listed : (name, token) ∈ dueTokens r s)
    (held : r.grants.get name = some g) :
    g.token = token ∧ g.data.deadline.after s = false := by
  obtain ⟨⟨n, due⟩, hmem, hpair⟩ := List.mem_map.mp listed
  obtain ⟨rfl, rfl⟩ := Prod.mk.inj hpair
  obtain ⟨hsorted, hdue⟩ := List.mem_filter.mp hmem
  obtain ⟨k, hk⟩ := (Go.Map.mem_sorted _ _).mp hsorted
  rw [Go.Map.get_mapValues] at hk
  obtain ⟨g', hg', hentry⟩ := Option.map_eq_some_iff.mp hk
  obtain ⟨rfl, rfl⟩ := Prod.mk.inj hentry
  cases hg'.symm.trans held
  simp only [Bool.and_eq_true, Bool.not_eq_true'] at hdue
  exact ⟨rfl, hdue.2⟩

/-- A property of all records is one of the grants they stand for. -/
theorem forall_record_iff {R : Type} {toGrant : R → Grant String Lifetime} {get : Option R}
    {live : Option (Grant String Lifetime)} (view : live = get.map toGrant) {P : Lifetime → Prop} :
    (∀ held, get = some held → P (toGrant held).data) ↔ ∀ g, live = some g → P g.data := by
  subst view
  simp

/-- The expiry of a listed grant, on either table: it removes only what was due at the scan
exactly if the grant has ended by itself or was refreshed last to a deadline not after the
scan. -/
theorem listed_expiry_iff {p : Policy String String} {S A : Type} (sim : Simulation p Lifetime S A)
    {start : S} (good : sim.good start) (empty : sim.view start = Register.empty)
    {before between : List A} (run : sim.Admissible start (before ++ between))
    (few : (Register.mintedAll p (sim.view start) (sim.opsOf (before ++ between))).length < 2 ^ 64)
    {s : Time} {name : String} {token : UInt64} {g : Grant String Lifetime}
    (listed : (name, token) ∈ dueTokens (sim.view (sim.run start before)) s)
    (held : (sim.view (sim.run start before)).grants.get name = some g) :
    ((Register.step p (sim.view (sim.run start (before ++ between))) (.expire name token)).2 =
        .expired true →
      ∀ g', (sim.view (sim.run start (before ++ between))).grants.get name = some g' →
        g'.data.deadline.after s = false) ↔
    (sim.opsOf between).any (Register.ends name g) = true ∨
      ∀ d, (((sim.opsOf between).filterMap (Register.refreshed name g)).map
        Lifetime.deadline).getLast? = some d → d.after s = false := by
  obtain ⟨rfl, hdue⟩ := due_of_listed listed held
  have hbefore := (sim.admissible_append run).1
  have valid := (sim.run_admitted good empty hbefore).key _ _ held
  have key := sim.data_at_token_iff good empty run few held
    (P := fun life => life.deadline.after s = false) hdue
  simp only [List.getLast?_map, Option.map_eq_some_iff, forall_exists_index, and_imp,
    forall_apply_eq_imp_iff₂]
  rw [← key, Register.reply_expire, valid]
  generalize (sim.view (sim.run start (before ++ between))).grants.get name = live
  cases live with
  | none => simp
  | some g' => simp

variable [Unicode]

namespace Locks

/-- Commands that end the grant `rec` records. -/
def Action.endsGrant (rec : Record) : Action → Bool
  | .release name holder token =>
      decide (name = rec.name ∧ holder = rec.holder ∧ token = rec.token)
  | .expire name token => decide (name = rec.name ∧ token = rec.token)
  | _ => false

/-- The deadline a command gives the grant `rec` records, if it refreshes it. -/
def Action.refreshDeadline (rec : Record) : Action → Option Time
  | .acquire _ name holder deadline _ =>
      if name = rec.name ∧ holder = rec.holder then some deadline else none
  | .renew name holder token deadline _ =>
      if name = rec.name ∧ holder = rec.holder ∧ token = rec.token then some deadline else none
  | _ => none

/-- The commands between a scan at `s` and the expiry it submitted leave the
listed grant ended, or refreshed last to a deadline not after `s`. -/
def ScanStillRight (rec : Record) (s : Time) (between : List Action) : Prop :=
  between.any (Action.endsGrant rec) = true ∨
    ∀ d, (between.filterMap (Action.refreshDeadline rec)).getLast? = some d → d.after s = false

/-- An expiry that removes a record removes one whose deadline is not after `s`. -/
def ExpiryIsDue (t : Table) (name : String) (token : UInt64) (s : Time) : Prop :=
  (t.expire name token).2.1 = true →
    ∀ held, t.get name = some held → held.deadline.after s = false

theorem any_endsGrant (rec : Record) (as : List Action) :
    (simulation.opsOf as).any (Register.ends rec.name rec.toGrant) =
      as.any (Action.endsGrant rec) := by
  refine simulation.any_opsOf (fun a => ?_) as
  cases a <;> simp [simulation, Action.ops, Register.ends, Action.endsGrant, Record.toGrant]

theorem filterMap_refreshDeadline (rec : Record) (as : List Action) :
    ((simulation.opsOf as).filterMap (Register.refreshed rec.name rec.toGrant)).map
        Lifetime.deadline =
      as.filterMap (Action.refreshDeadline rec) := by
  refine simulation.filterMap_opsOf (fun a => ?_) as
  cases a with
  | acquire | renew =>
      simp only [simulation, Action.ops, Register.refreshed, Action.refreshDeadline,
        Record.toGrant, List.filterMap_cons, List.filterMap_nil]
      split_ifs <;> rfl
  | release | expire | restore =>
      simp [simulation, Action.ops, Register.refreshed, Action.refreshDeadline]

omit [Unicode] in
theorem expirerTick_eq {t : Table} (keyed : t.locks.Keyed Record.name) (s : Time) :
    expirerTick t true s = dueTokens t.view s := by
  rw [dueTokens, ← Table.due_entries keyed, List.map_map]
  rfl

theorem expiryIsDue_iff_view (t : Table) (name : String) (token : UInt64) (s : Time) :
    ExpiryIsDue t name token s ↔
      ((Register.step policy t.view (.expire name token)).2 = .expired true →
        ∀ g, t.view.grants.get name = some g → g.data.deadline.after s = false) := by
  have hremoved := (t.expire_step name token).2
  rw [ExpiryIsDue, ← forall_record_iff (P := fun d => d.deadline.after s = false)
    (t.view_get name), hremoved, Register.reply_expire, Fencing.Reply.expired.injEq]
  rfl

theorem expiryIsDue_iff {before between : List Action} {s : Time} {name : String}
    {token : UInt64} {rec : Record} (run : RunFromEmpty (before ++ between))
    (few : (createdTokens (before ++ between)).length < 2 ^ 64)
    (submitted : (name, token) ∈ expirerTick (tableAfter before) true s)
    (listed : (tableAfter before).get name = some rec) :
    ExpiryIsDue (tableAfter (before ++ between)) name token s ↔
      ScanStillRight rec s between := by
  have keyed : (tableAfter before).locks.Keyed Record.name :=
    (simulation.run_view keyed_new (simulation.admissible_append run).1).1
  obtain rfl : rec.name = name := keyed name rec listed
  have held : (tableAfter before).view.grants.get rec.name = some rec.toGrant := by
    rw [Table.view_get, ← Table.get, listed, Option.map_some]
  rw [createdTokens_eq run] at few
  rw [expirerTick_eq keyed] at submitted
  rw [expiryIsDue_iff_view, ScanStillRight, ← any_endsGrant, ← filterMap_refreshDeadline]
  exact listed_expiry_iff simulation keyed_new view_new run few submitted held

end Locks

namespace Leases

/-- Commands that end the grant `rec` records. -/
def Action.endsGrant (rec : Record) : Action → Bool
  | .revoke name owner token =>
      decide (name = rec.name ∧ owner = rec.owner ∧ token = rec.token)
  | .expire name token => decide (name = rec.name ∧ token = rec.token)
  | _ => false

/-- The deadline a command gives the grant `rec` records, if it refreshes it. -/
def Action.refreshDeadline (rec : Record) : Action → Option Time
  | .grant _ name owner deadline _ =>
      if name = rec.name ∧ owner = rec.owner then some deadline else none
  | .renew name owner token deadline _ =>
      if name = rec.name ∧ owner = rec.owner ∧ token = rec.token then some deadline else none
  | _ => none

/-- The commands between a scan at `s` and the expiry it submitted leave the
listed grant ended, or refreshed last to a deadline not after `s`. -/
def ScanStillRight (rec : Record) (s : Time) (between : List Action) : Prop :=
  between.any (Action.endsGrant rec) = true ∨
    ∀ d, (between.filterMap (Action.refreshDeadline rec)).getLast? = some d → d.after s = false

/-- An expiry that removes a record removes one whose deadline is not after `s`. -/
def ExpiryIsDue (t : Table) (name : String) (token : UInt64) (s : Time) : Prop :=
  (t.expire name token).2.1 = true →
    ∀ held, t.get name = some held → held.deadline.after s = false

theorem any_endsGrant (rec : Record) (as : List Action) :
    (simulation.opsOf as).any (Register.ends rec.name rec.toGrant) =
      as.any (Action.endsGrant rec) := by
  refine simulation.any_opsOf (fun a => ?_) as
  cases a <;> simp [simulation, Action.ops, Register.ends, Action.endsGrant, Record.toGrant]

theorem filterMap_refreshDeadline (rec : Record) (as : List Action) :
    ((simulation.opsOf as).filterMap (Register.refreshed rec.name rec.toGrant)).map
        Lifetime.deadline =
      as.filterMap (Action.refreshDeadline rec) := by
  refine simulation.filterMap_opsOf (fun a => ?_) as
  cases a with
  | grant | renew =>
      simp only [simulation, Action.ops, Register.refreshed, Action.refreshDeadline,
        Record.toGrant, List.filterMap_cons, List.filterMap_nil]
      split_ifs <;> rfl
  | revoke | expire | restore =>
      simp [simulation, Action.ops, Register.refreshed, Action.refreshDeadline]

omit [Unicode] in
theorem expirerTick_eq {t : Table} (keyed : t.leases.Keyed Record.name) (s : Time) :
    expirerTick t true s = dueTokens t.view s := by
  rw [dueTokens, ← Table.due_entries keyed, List.map_map]
  rfl

theorem expiryIsDue_iff_view (t : Table) (name : String) (token : UInt64) (s : Time) :
    ExpiryIsDue t name token s ↔
      ((Register.step policy t.view (.expire name token)).2 = .expired true →
        ∀ g, t.view.grants.get name = some g → g.data.deadline.after s = false) := by
  have hremoved := (t.expire_step name token).2
  rw [ExpiryIsDue, ← forall_record_iff (P := fun d => d.deadline.after s = false)
    (t.view_get name), hremoved, Register.reply_expire, Fencing.Reply.expired.injEq]
  rfl

theorem expiryIsDue_iff {before between : List Action} {s : Time} {name : String}
    {token : UInt64} {rec : Record} (run : RunFromEmpty (before ++ between))
    (few : (createdTokens (before ++ between)).length < 2 ^ 64)
    (submitted : (name, token) ∈ expirerTick (tableAfter before) true s)
    (listed : (tableAfter before).get name = some rec) :
    ExpiryIsDue (tableAfter (before ++ between)) name token s ↔
      ScanStillRight rec s between := by
  have keyed : (tableAfter before).leases.Keyed Record.name :=
    (simulation.run_view keyed_new (simulation.admissible_append run).1).1
  obtain rfl : rec.name = name := keyed name rec listed
  have held : (tableAfter before).view.grants.get rec.name = some rec.toGrant := by
    rw [Table.view_get, ← Table.get, listed, Option.map_some]
  rw [createdTokens_eq run] at few
  rw [expirerTick_eq keyed] at submitted
  rw [expiryIsDue_iff_view, ScanStillRight, ← any_endsGrant, ← filterMap_refreshDeadline]
  exact listed_expiry_iff simulation keyed_new view_new run few submitted held

end Leases

/-- An expiry submitted by a scan at `s` removes only what was due at `s` exactly
when the commands applied in between left the scan's decision right; on the lock
table and on the lease table. -/
theorem submitted_expiry_is_due_iff :
    (∀ (before between : List Locks.Action) (s : Time) (name : String) (token : UInt64)
        (rec : Locks.Record), Locks.RunFromEmpty (before ++ between) →
        (Locks.createdTokens (before ++ between)).length < 2 ^ 64 →
        (name, token) ∈ Locks.expirerTick (Locks.tableAfter before) true s →
        (Locks.tableAfter before).get name = some rec →
        (Locks.ExpiryIsDue (Locks.tableAfter (before ++ between)) name token s ↔
          Locks.ScanStillRight rec s between)) ∧
      ∀ (before between : List Leases.Action) (s : Time) (name : String) (token : UInt64)
        (rec : Leases.Record), Leases.RunFromEmpty (before ++ between) →
        (Leases.createdTokens (before ++ between)).length < 2 ^ 64 →
        (name, token) ∈ Leases.expirerTick (Leases.tableAfter before) true s →
        (Leases.tableAfter before).get name = some rec →
        (Leases.ExpiryIsDue (Leases.tableAfter (before ++ between)) name token s ↔
          Leases.ScanStillRight rec s between) :=
  ⟨fun _ _ _ _ _ _ run few submitted listed =>
      Locks.expiryIsDue_iff run few submitted listed,
    fun _ _ _ _ _ _ run few submitted listed =>
      Leases.expiryIsDue_iff run few submitted listed⟩

/-- One holder of one name, due at 20. -/
def lockGranted : List Locks.Action := [.acquire 0 "job" "a" 10 1]

def leaseGranted : List Leases.Action := [.grant 0 "job" "a" 10 1]

omit [Unicode] in
theorem submitted_of_lockGranted : letI := Unicode.ascii
    ("job", 1) ∈ Locks.expirerTick (Locks.tableAfter lockGranted) true 20 :=
  List.mem_map.mpr ⟨⟨"job", "a", 1, 0, 10, 1⟩,
    List.mem_filter.mpr ⟨(Go.Map.mem_sorted _ _).mpr ⟨"job", by decide⟩, by decide⟩, rfl⟩

omit [Unicode] in
theorem submitted_of_leaseGranted : letI := Unicode.ascii
    ("job", 1) ∈ Leases.expirerTick (Leases.tableAfter leaseGranted) true 20 :=
  List.mem_map.mpr ⟨⟨"job", "a", 1, 0, 10, 1⟩,
    List.mem_filter.mpr ⟨(Go.Map.mem_sorted _ _).mpr ⟨"job", by decide⟩, by decide⟩, rfl⟩

omit [Unicode] in
/-- The scan at 20 lists the grant, its holder renews it to 100, and the expiry
drops it with that deadline. -/
theorem renewed_grant_expired : letI := Unicode.ascii
    (("job", 1) ∈ Locks.expirerTick (Locks.tableAfter lockGranted) true 20 ∧
      ¬ Locks.ExpiryIsDue
        (Locks.tableAfter (lockGranted ++ [.renew "job" "a" 1 100 1])) "job" 1 20) ∧
      ("job", 1) ∈ Leases.expirerTick (Leases.tableAfter leaseGranted) true 20 ∧
        ¬ Leases.ExpiryIsDue
          (Leases.tableAfter (leaseGranted ++ [.grant 0 "job" "a" 100 1])) "job" 1 20 := by
  refine ⟨⟨submitted_of_lockGranted, ?_⟩, submitted_of_leaseGranted, ?_⟩
  · intro h
    exact absurd (h (by decide) ⟨"job", "a", 1, 0, 100, 1⟩ (by decide)) (by decide)
  · intro h
    exact absurd (h (by decide) ⟨"job", "a", 1, 0, 100, 1⟩ (by decide)) (by decide)

omit [Unicode] in
/-- A refresh that does not reach past the scan, and a release with a new holder
after it, leave the expiry harmless. -/
theorem submitted_expiry_is_due_after_early_refresh : letI := Unicode.ascii
    Locks.ExpiryIsDue
        (Locks.tableAfter (lockGranted ++ [.renew "job" "a" 1 15 1])) "job" 1 20 ∧
      Leases.ExpiryIsDue
        (Leases.tableAfter (leaseGranted ++ [.revoke "job" "a" 1, .grant 0 "job" "b" 90 1]))
        "job" 1 20 :=
  ⟨((@submitted_expiry_is_due_iff .ascii).1 lockGranted [.renew "job" "a" 1 15 1] 20 "job" 1
      ⟨"job", "a", 1, 0, 10, 1⟩ ⟨trivial, trivial, trivial⟩ (by decide)
      submitted_of_lockGranted (by decide)).mpr
      (.inr fun d hd => by cases hd; decide),
    ((@submitted_expiry_is_due_iff .ascii).2 leaseGranted
      [.revoke "job" "a" 1, .grant 0 "job" "b" 90 1] 20 "job" 1
      ⟨"job", "a", 1, 0, 10, 1⟩ ⟨trivial, trivial, trivial, trivial⟩ (by decide)
      submitted_of_leaseGranted (by decide)).mpr (.inl (by decide))⟩

end Clusdr
