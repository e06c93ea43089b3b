import Clusdr.Core.Locks
import Clusdr.Fencing.Archive

/-!
The lock table implements a fenced register. The register forgets when a lock
was acquired and who is waiting; every method is one register operation, and
restoring a table's own snapshot is none.
-/

namespace Clusdr.Locks

open Go (Time Duration Unicode)
open Fencing (Archive Grant Op Policy Refusal Register Reply Simulation)

def Record.toGrant (rec : Record) : Grant String Lifetime :=
  ⟨rec.holder, rec.token, ⟨rec.deadline, rec.ttl⟩⟩

def Table.view (t : Table) : Register String String Lifetime :=
  ⟨t.locks.mapValues fun _ rec => rec.toGrant, t.next⟩

/-- What the FSM does to a lock table: the four commands with any arguments, and
the restore of a snapshot copied from that table, visited in any order. -/
inductive Action where
  | acquire (now : Time) (name holder : String) (deadline : Time) (ttl : Duration)
  | release (name holder : String) (token : UInt64)
  | renew (name holder : String) (token : UInt64) (deadline : Time) (ttl : Duration)
  | expire (name : String) (token : UInt64)
  | restore (visited : List Record)

def Action.ops : Action → List (Op String String Lifetime)
  | .acquire _ name holder deadline ttl => [.take name holder ⟨deadline, ttl⟩]
  | .release name holder token => [.drop name holder token]
  | .renew name holder token deadline ttl => [.renew name holder token ⟨deadline, ttl⟩]
  | .expire name token => [.expire name token]
  | .restore _ => []

/-- The action is a command that reads `now` on the clock, if it reads it at all. -/
def Action.ReadsClock (now : Time) : Action → Prop
  | .acquire now' _ _ _ _ => now' = now
  | .restore _ => False
  | _ => True

def Table.May (t : Table) : Action → Prop
  | .restore visited => t.locks.Ranges visited
  | _ => True

variable [Unicode]

def policy : Policy String String where
  key name := (validName name).isOk
  holder holder := decide (holder ≠ "")
  capacity := maxLocks

namespace Table

def act (t : Table) : Action → Table
  | .acquire now name holder deadline ttl => (t.acquire now name holder deadline ttl).1
  | .release name holder token => (t.release name holder token).1
  | .renew name holder token deadline ttl => (t.renew name holder token deadline ttl).1
  | .expire name token => (t.expire name token).1
  | .restore visited => t.restore (t.snapshotCopy visited)

/-- The token of the grant an action creates: that of an acquire which found the
name free and took it. -/
def created (t : Table) : Action → Option UInt64
  | .acquire now name holder deadline ttl =>
      match t.get name, (t.acquire now name holder deadline ttl).2 with
      | none, .ok (token, true) => some token
      | _, _ => none
  | _ => none

omit [Unicode] in
theorem view_get (t : Table) (name : String) :
    t.view.grants.get name = (t.locks.get name).map Record.toGrant :=
  Go.Map.get_mapValues _ _ _

omit [Unicode] in
theorem view_len (t : Table) : t.view.grants.len = t.locks.len :=
  Go.Map.len_mapValues _ _

def errorText : Except String Unit → String
  | .error e => e
  | .ok _ => ""

/-- What the table's callers are told of a refusal. -/
def refusalText (name : String) : Refusal → String
  | .key => errorText (validName name)
  | .holder => "lock holder is required"
  | .full => "too many locks (max " ++ toString maxLocks ++ ")"
  | .absent => notHeld name
  | .mismatch => tokenMismatch name

theorem refusalText_key {name e : String} (h : validName name = .error e) :
    refusalText name .key = e :=
  congrArg errorText h

theorem refusalText_holder (name : String) :
    refusalText name .holder = "lock holder is required" := rfl

theorem refusalText_full (name : String) :
    refusalText name .full = "too many locks (max " ++ toString maxLocks ++ ")" := rfl

theorem refusalText_absent (name : String) : refusalText name .absent = notHeld name := rfl

theorem refusalText_mismatch (name : String) :
    refusalText name .mismatch = tokenMismatch name := rfl

def takenResult (name : String) : Reply → Except String (UInt64 × Bool)
  | .taken token => .ok (token, true)
  | .held token => .ok (token, false)
  | .refused why => .error (refusalText name why)
  | .done | .expired _ => .ok (0, false)

theorem taken_of_ok {name : String} {reply : Reply} {token : UInt64}
    (ok : takenResult name reply = .ok (token, true)) : reply = .taken token := by
  cases reply <;> cases ok
  rfl

def doneResult (name : String) : Reply → Except String Unit
  | .refused why => .error (refusalText name why)
  | _ => .ok ()

def expiredResult : Reply → Bool
  | .expired dropped => dropped
  | _ => false

theorem notHeld_ne (name : String) : notHeld name ≠ "" := by
  unfold notHeld
  simp

theorem tokenMismatch_ne (name : String) : tokenMismatch name ≠ "" := by
  unfold tokenMismatch
  simp

theorem refusalText_ne {name : String} {why : Refusal}
    (named : why = .key → validName name ≠ .ok ()) : refusalText name why ≠ "" := by
  cases why with
  | key =>
      cases hname : validName name with
      | ok u => exact absurd hname (named rfl)
      | error e =>
          rw [refusalText_key hname]
          exact checkName_error_ne (by decide) hname
  | holder =>
      rw [refusalText_holder]
      decide
  | full =>
      rw [refusalText_full]
      simp
  | absent => exact notHeld_ne name
  | mismatch => exact tokenMismatch_ne name

/-- A refusal has a text. -/
theorem refusalText_step_ne {r : Register String String Lifetime} {op : Op String String Lifetime}
    {why : Refusal} (refused : (Register.step policy r op).2 = .refused why) :
    refusalText (Register.opKey op) why ≠ "" := by
  refine refusalText_ne fun hkey hname => ?_
  subst hkey
  have hbad := Register.key_of_refused refused
  simp only [policy, hname] at hbad
  cases hbad

section Told

variable {r : Register String String Lifetime} {op : Op String String Lifetime} {e : String}

theorem takenResult_error_ne
    (h : takenResult (Register.opKey op) (Register.step policy r op).2 = .error e) : e ≠ "" := by
  cases hreply : (Register.step policy r op).2 with
  | refused why =>
      rw [hreply] at h
      rw [← Except.error.inj h]
      exact refusalText_step_ne hreply
  | _ =>
      rw [hreply] at h
      cases h

theorem doneResult_error_ne
    (h : doneResult (Register.opKey op) (Register.step policy r op).2 = .error e) : e ≠ "" := by
  cases hreply : (Register.step policy r op).2 with
  | refused why =>
      rw [hreply] at h
      rw [← Except.error.inj h]
      exact refusalText_step_ne hreply
  | _ =>
      rw [hreply] at h
      cases h

end Told

theorem acquire_step (t : Table) (now : Time) (name holder : String) (deadline : Time)
    (ttl : Duration) :
    (t.acquire now name holder deadline ttl).1.view =
        (Register.step policy t.view (.take name holder ⟨deadline, ttl⟩)).1 ∧
      (t.acquire now name holder deadline ttl).2 =
        takenResult name (Register.step policy t.view (.take name holder ⟨deadline, ttl⟩)).2 := by
  simp only [acquire, Register.step, policy, view_get, view_len]
  cases hname : validName name with
  | error e => simp [Except.isOk, Except.toBool, takenResult, refusalText_key hname]
  | ok u =>
      by_cases hholder : holder = ""
      · simp [hholder, Except.isOk, Except.toBool, takenResult, refusalText_holder]
      · cases hget : t.locks.get name with
        | none =>
            by_cases hroom : maxLocks ≤ t.locks.len
            · simp [hholder, hroom, Except.isOk, Except.toBool, takenResult, refusalText_full]
            · simp [hholder, hroom, Except.isOk, Except.toBool, takenResult, broadcast, view,
                Go.Map.mapValues_set, Register.mint, Record.toGrant]
        | some held =>
            by_cases hown : held.holder = holder
            · simp [hholder, hown, Except.isOk, Except.toBool, takenResult, broadcast, view,
                Go.Map.mapValues_set, Register.put, Record.toGrant]
            · simp [hholder, hown, Except.isOk, Except.toBool, takenResult, Record.toGrant]

theorem release_step (t : Table) (name holder : String) (token : UInt64) :
    (t.release name holder token).1.view =
        (Register.step policy t.view (.drop name holder token)).1 ∧
      (t.release name holder token).2 =
        doneResult name (Register.step policy t.view (.drop name holder token)).2 := by
  simp only [release, Register.step, policy, view_get]
  cases hname : validName name with
  | error e => simp [Except.isOk, Except.toBool, doneResult, refusalText_key hname]
  | ok u =>
      cases hget : t.locks.get name with
      | none => simp [Except.isOk, Except.toBool, doneResult, refusalText_absent]
      | some held =>
          by_cases hown : held.holder = holder ∧ held.token = token
          · simp [hown, Except.isOk, Except.toBool, doneResult, broadcast, view,
              Go.Map.mapValues_delete, Register.remove, Record.toGrant]
          · have hother : held.holder ≠ holder ∨ held.token ≠ token := not_and_or.mp hown
            simp only [hother, hown, Except.isOk, Except.toBool, doneResult, refusalText_mismatch,
              Record.toGrant, Bool.not_true,
              Bool.false_eq_true, ite_true, ite_false, Option.map_some, and_self]

theorem renew_step (t : Table) (name holder : String) (token : UInt64) (deadline : Time)
    (ttl : Duration) :
    (t.renew name holder token deadline ttl).1.view =
        (Register.step policy t.view (.renew name holder token ⟨deadline, ttl⟩)).1 ∧
      (t.renew name holder token deadline ttl).2 =
        doneResult name (Register.step policy t.view (.renew name holder token ⟨deadline, ttl⟩)).2 := by
  simp only [renew, Register.step, policy, view_get]
  cases hname : validName name with
  | error e => simp [Except.isOk, Except.toBool, doneResult, refusalText_key hname]
  | ok u =>
      cases hget : t.locks.get name with
      | none => simp [Except.isOk, Except.toBool, doneResult, refusalText_absent]
      | some held =>
          by_cases hown : held.holder = holder ∧ held.token = token
          · simp [hown, Except.isOk, Except.toBool, doneResult, view, Go.Map.mapValues_set,
              Register.put, Record.toGrant]
          · have hother : held.holder ≠ holder ∨ held.token ≠ token := not_and_or.mp hown
            simp only [hother, hown, Except.isOk, Except.toBool, doneResult, refusalText_mismatch,
              Record.toGrant, Bool.not_true,
              Bool.false_eq_true, ite_true, ite_false, Option.map_some, and_self]

theorem expire_step (t : Table) (name : String) (token : UInt64) :
    (t.expire name token).1.view =
        (Register.step policy t.view (.expire name token)).1 ∧
      (t.expire name token).2.1 =
        expiredResult (Register.step policy t.view (.expire name token)).2 := by
  simp only [expire, Register.step, policy, view_get]
  cases hname : validName name with
  | error e => simp [Except.isOk, Except.toBool, expiredResult]
  | ok u =>
      cases hget : t.locks.get name with
      | none => simp [Except.isOk, Except.toBool, expiredResult]
      | some held =>
          by_cases hown : held.token = token
          · simp [hown, Except.isOk, Except.toBool, expiredResult, broadcast, view,
              Go.Map.mapValues_delete, Register.remove, Record.toGrant]
          · simp [hown, Except.isOk, Except.toBool, expiredResult, Record.toGrant]

omit [Unicode] in
theorem view_restore {t : Table} {visited : List Record} (keyed : t.locks.Keyed Record.name)
    (ranges : t.locks.Ranges visited) : (t.restore (t.snapshotCopy visited)).view = t.view := by
  simp only [restore, snapshotCopy, broadcast, view, Go.Map.ofList_ranges ranges keyed]

theorem created_acquire (t : Table) (now : Time) (name holder : String) (deadline : Time)
    (ttl : Duration) :
    t.created (.acquire now name holder deadline ttl) =
      Register.minted policy t.view (.take name holder ⟨deadline, ttl⟩) := by
  simp only [created, Register.minted, policy, view_get, view_len, acquire, get]
  cases hget : t.locks.get name with
  | some held => simp
  | none =>
      cases hname : validName name with
      | error e => simp [Except.isOk, Except.toBool]
      | ok u =>
          by_cases hholder : holder = ""
          · simp [hholder, Except.isOk, Except.toBool]
          · by_cases hroom : maxLocks ≤ t.locks.len
            · simp [hholder, hroom, Nat.not_lt.mpr hroom]
            · simp [hholder, hroom, Except.isOk, Except.toBool, Nat.lt_of_not_le hroom, view]

theorem created_minted (t : Table) (a : Action) :
    (t.created a).toList = Register.mintedAll policy t.view a.ops := by
  cases a with
  | acquire now name holder deadline ttl =>
      rw [created_acquire]
      simp only [Action.ops, Register.mintedAll, List.append_nil]
  | release | renew | expire | restore => rfl

/-- What a method may do to the records when the clock reads `now`: what it makes it
stamps, and what it rewrites keeps its stamp. -/
abbrev Edit (now : Time) : Go.Map String Record → Go.Map String Record → Prop :=
  Go.Map.Edit (fun name rec => rec.name = name ∧ rec.acquiredAt = now)
    fun held rec => rec.name = held.name ∧ rec.acquiredAt = held.acquiredAt

/-! Each method leaves the table alone, or it succeeds. -/

theorem acquire_cases (t : Table) (now : Time) (name holder : String) (deadline : Time)
    (ttl : Duration) :
    (t.acquire now name holder deadline ttl).1 = t ∨
      (∃ taken, (t.acquire now name holder deadline ttl).2 = .ok (taken, true)) ∧
        Edit now t.locks (t.acquire now name holder deadline ttl).1.locks := by
  unfold acquire
  split
  · exact Or.inl rfl
  · split
    · exact Or.inl rfl
    · split
      · rename_i held hget
        split
        · exact Or.inr ⟨⟨_, rfl⟩, .replace hget ⟨rfl, rfl⟩⟩
        · exact Or.inl rfl
      · rename_i hfree
        split
        · exact Or.inl rfl
        · exact Or.inr ⟨⟨_, rfl⟩, .create hfree ⟨rfl, rfl⟩⟩

theorem release_cases (t : Table) (now : Time) (name holder : String) (token : UInt64) :
    (t.release name holder token).1 = t ∨
      (t.release name holder token).2 = .ok () ∧
        Edit now t.locks (t.release name holder token).1.locks := by
  unfold release
  split
  · exact Or.inl rfl
  · split
    · exact Or.inl rfl
    · split
      · exact Or.inl rfl
      · exact Or.inr ⟨rfl, .delete name⟩

theorem renew_cases (t : Table) (now : Time) (name holder : String) (token : UInt64)
    (deadline : Time) (ttl : Duration) :
    (t.renew name holder token deadline ttl).1 = t ∨
      (t.renew name holder token deadline ttl).2 = .ok () ∧
        Edit now t.locks (t.renew name holder token deadline ttl).1.locks := by
  unfold renew
  split
  · exact Or.inl rfl
  · split
    · exact Or.inl rfl
    · rename_i held hget
      split
      · exact Or.inl rfl
      · exact Or.inr ⟨rfl, .replace hget ⟨rfl, rfl⟩⟩

theorem expire_cases (t : Table) (now : Time) (name : String) (token : UInt64) :
    t.expire name token = (t, false, []) ∨
      (t.expire name token).2.1 = true ∧
        Edit now t.locks (t.expire name token).1.locks := by
  unfold expire
  split
  · exact Or.inl rfl
  · split
    · exact Or.inl rfl
    · split
      · exact Or.inl rfl
      · exact Or.inr ⟨rfl, .delete name⟩

/-- What an action other than a restore does to the records. -/
theorem edit_act (t : Table) {a : Action} {now : Time} (reads : a.ReadsClock now) :
    Edit now t.locks (t.act a).locks := by
  cases a with
  | acquire now' name holder deadline ttl =>
      obtain rfl := reads
      rcases t.acquire_cases now' name holder deadline ttl with hsame | ⟨-, hedit⟩
      · rw [act, hsame]
        exact .same
      · exact hedit
  | release name holder token =>
      rcases t.release_cases now name holder token with hsame | ⟨-, hedit⟩
      · rw [act, hsame]
        exact .same
      · exact hedit
  | renew name holder token deadline ttl =>
      rcases t.renew_cases now name holder token deadline ttl with hsame | ⟨-, hedit⟩
      · rw [act, hsame]
        exact .same
      · exact hedit
  | expire name token =>
      rcases t.expire_cases now name token with hsame | ⟨-, hedit⟩
      · rw [act, hsame]
        exact .same
      · exact hedit
  | restore visited => cases reads

theorem keyed_act {t : Table} (keyed : t.locks.Keyed Record.name) (a : Action) :
    (t.act a).locks.Keyed Record.name := by
  have command : ∀ now, a.ReadsClock now → (t.act a).locks.Keyed Record.name := fun now reads =>
    (t.edit_act reads).keyed (fun _ _ made => made.1) (fun _ _ kept => kept.1) keyed
  cases a with
  | restore visited => exact Go.Map.keyed_ofList Record.name visited
  | acquire now name holder deadline ttl => exact command now rfl
  | release | renew | expire => exact command 0 trivial

end Table

/-- Every method of the table is the register operation it stands for. -/
def simulation : Simulation policy Lifetime Table Action where
  act := Table.act
  may := Table.May
  good t := t.locks.Keyed Record.name
  view := Table.view
  ops := Action.ops
  good_act _ a keyed _ := Table.keyed_act keyed a
  view_act t a keyed may := by
    cases a with
    | acquire now name holder deadline ttl => exact (t.acquire_step now name holder deadline ttl).1
    | release name holder token => exact (t.release_step name holder token).1
    | renew name holder token deadline ttl => exact (t.renew_step name holder token deadline ttl).1
    | expire name token => exact (t.expire_step name token).1
    | restore visited => exact Table.view_restore keyed may

omit [Unicode] in
theorem Action.length_ops (a : Action) : a.ops.length ≤ 1 := by
  cases a with
  | restore => exact Nat.zero_le 1
  | _ => exact Nat.le_refl 1

def archive : Archive simulation (List Record) Snapshot where
  ranges t visited := t.locks.Ranges visited
  copy := Table.snapshotCopy
  restore := Table.restore
  content snap := (Table.new.restore snap).view
  created := Table.created
  good_restore _ _ := Go.Map.keyed_ofList _ _
  view_restore _ _ := rfl
  content_copy _ _ keyed ranges := Table.view_restore keyed ranges
  created_minted := Table.created_minted

omit [Unicode] in
theorem view_new : Table.new.view = Register.empty := rfl

omit [Unicode] in
theorem keyed_new : Table.new.locks.Keyed Record.name := Go.Map.Keyed.empty _

end Clusdr.Locks
