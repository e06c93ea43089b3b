import Clusdr.Go.Map

/-!
A register of exclusive named grants with fencing tokens. At most one grant is
live for a key; taking a free key mints the next token, and every other way of
touching a grant must present it. The register is generic in keys, holders and
the data a holder refreshes; which keys and holders it serves, and how many
grants it keeps, is its policy.
-/

namespace Fencing

structure Grant (H D : Type) where
  holder : H
  token : UInt64
  data : D
deriving DecidableEq

structure Register (K H D : Type) where
  grants : Go.Map K (Grant H D)
  next : UInt64

structure Policy (K H : Type) where
  key : K → Bool
  holder : H → Bool
  capacity : Nat

inductive Op (K H D : Type) where
  | take (k : K) (h : H) (d : D)
  | drop (k : K) (h : H) (token : UInt64)
  | renew (k : K) (h : H) (token : UInt64) (d : D)
  | expire (k : K) (token : UInt64)

inductive Refusal where
  | key
  | holder
  | full
  | absent
  | mismatch
deriving DecidableEq

inductive Reply where
  | taken (token : UInt64)
  | held (token : UInt64)
  | done
  | expired (dropped : Bool)
  | refused (why : Refusal)
deriving DecidableEq

namespace Register

variable {K H D : Type} [DecidableEq K] [DecidableEq H]

def empty : Register K H D := ⟨∅, 0⟩

def put (r : Register K H D) (k : K) (g : Grant H D) : Register K H D :=
  { r with grants := r.grants.set k g }

def remove (r : Register K H D) (k : K) : Register K H D :=
  { r with grants := r.grants.delete k }

def mint (r : Register K H D) (k : K) (h : H) (d : D) : Register K H D :=
  ⟨r.grants.set k ⟨h, r.next + 1, d⟩, r.next + 1⟩

def step (p : Policy K H) (r : Register K H D) : Op K H D → Register K H D × Reply
  | .take k h d =>
      if !p.key k then (r, .refused .key)
      else if !p.holder h then (r, .refused .holder)
      else match r.grants.get k with
        | some g =>
            if g.holder = h then (r.put k { g with data := d }, .taken g.token)
            else (r, .held g.token)
        | none =>
            if p.capacity ≤ r.grants.len then (r, .refused .full)
            else (r.mint k h d, .taken (r.next + 1))
  | .drop k h token =>
      if !p.key k then (r, .refused .key)
      else match r.grants.get k with
        | none => (r, .refused .absent)
        | some g =>
            if g.holder = h ∧ g.token = token then (r.remove k, .done)
            else (r, .refused .mismatch)
  | .renew k h token d =>
      if !p.key k then (r, .refused .key)
      else match r.grants.get k with
        | none => (r, .refused .absent)
        | some g =>
            if g.holder = h ∧ g.token = token then (r.put k { g with data := d }, .done)
            else (r, .refused .mismatch)
  | .expire k token =>
      if !p.key k then (r, .expired false)
      else match r.grants.get k with
        | none => (r, .expired false)
        | some g =>
            if g.token = token then (r.remove k, .expired true) else (r, .expired false)

def run (p : Policy K H) (r : Register K H D) (ops : List (Op K H D)) : Register K H D :=
  ops.foldl (fun r op => (step p r op).1) r

@[simp] theorem run_cons (p : Policy K H) (r : Register K H D) (op : Op K H D)
    (ops : List (Op K H D)) : run p r (op :: ops) = run p (step p r op).1 ops := rfl

theorem run_append (p : Policy K H) (r : Register K H D) (xs ys : List (Op K H D)) :
    run p r (xs ++ ys) = run p (run p r xs) ys := List.foldl_append

/-- The token a step mints: only a take of a free key mints one. -/
def minted (p : Policy K H) (r : Register K H D) : Op K H D → Option UInt64
  | .take k h _ =>
      if p.key k ∧ p.holder h ∧ r.grants.get k = none ∧ r.grants.len < p.capacity then
        some (r.next + 1)
      else none
  | _ => none

/-- An operation that ends the grant `g` of `k`. -/
def ends (k : K) (g : Grant H D) : Op K H D → Bool
  | .drop j h token => decide (j = k ∧ h = g.holder ∧ token = g.token)
  | .expire j token => decide (j = k ∧ token = g.token)
  | _ => false

/-- The data an operation gives the grant `g` of `k` when it refreshes it. -/
def refreshed (k : K) (g : Grant H D) : Op K H D → Option D
  | .take j h d => if j = k ∧ h = g.holder then some d else none
  | .renew j h token d =>
      if j = k ∧ h = g.holder ∧ token = g.token then some d else none
  | _ => none

/-- Everything a step can do to the register. -/
inductive Change (p : Policy K H) (r : Register K H D) (op : Op K H D) : Register K H D → Prop
  | idle : minted p r op = none → Change p r op r
  | fresh (k : K) (h : H) (d : D) (shape : op = .take k h d) (free : r.grants.get k = none)
      (key : p.key k = true) (holder : p.holder h = true) (room : r.grants.len < p.capacity)
      (token : minted p r op = some (r.next + 1)) : Change p r op (r.mint k h d)
  | refresh (k : K) (g : Grant H D) (d : D) (held : r.grants.get k = some g)
      (data : refreshed k g op = some d) (token : minted p r op = none) :
      Change p r op (r.put k { g with data := d })
  | ended (k : K) (g : Grant H D) (held : r.grants.get k = some g)
      (ending : ends k g op = true) (token : minted p r op = none) :
      Change p r op (r.remove k)

theorem step_change (p : Policy K H) (r : Register K H D) (op : Op K H D) :
    Change p r op (step p r op).1 := by
  cases op with
  | take k h d =>
      simp only [step]
      split
      · exact .idle (by simp_all [minted])
      · rename_i hkey
        split
        · exact .idle (by simp_all [minted])
        · rename_i hholder
          split
          · rename_i g held
            split
            · rename_i own
              exact .refresh k g d held (by simp [refreshed, own]) (by simp [minted, held])
            · exact .idle (by simp [minted, held])
          · rename_i free
            split
            · exact .idle (by simp [minted, free]; omega)
            · rename_i hroom
              have hk : p.key k = true := by simpa using hkey
              have hh : p.holder h = true := by simpa using hholder
              have hr : r.grants.len < p.capacity := by omega
              exact .fresh k h d rfl free hk hh hr (by simp [minted, hk, hh, free, hr])
  | drop k h token =>
      simp only [step]
      split
      · exact .idle rfl
      · split
        · exact .idle rfl
        · rename_i g held
          split
          · rename_i own
            exact .ended k g held (by simp [ends, own]) rfl
          · exact .idle rfl
  | renew k h token d =>
      simp only [step]
      split
      · exact .idle rfl
      · split
        · exact .idle rfl
        · rename_i g held
          split
          · rename_i own
            exact .refresh k g d held (by simp [refreshed, own]) rfl
          · exact .idle rfl
  | expire k token =>
      simp only [step]
      split
      · exact .idle rfl
      · split
        · exact .idle rfl
        · rename_i g held
          split
          · rename_i own
            exact .ended k g held (by simp [ends, own]) rfl
          · exact .idle rfl

def opKey : Op K H D → K
  | .take k _ _ | .drop k _ _ | .renew k _ _ _ | .expire k _ => k

theorem opKey_of_ends {k : K} {g : Grant H D} {op : Op K H D} (h : ends k g op = true) :
    opKey op = k := by
  cases op with
  | take | renew => cases h
  | drop | expire => simp only [ends, decide_eq_true_eq] at h; exact h.1

theorem opKey_of_refreshed {k : K} {g : Grant H D} {op : Op K H D} {d : D}
    (h : refreshed k g op = some d) : opKey op = k := by
  cases op with
  | take | renew =>
      simp only [refreshed] at h
      split at h
      · rename_i hk; exact hk.1
      · cases h
  | drop | expire => cases h

/-- A step touches no key but its own. -/
theorem get_step_of_ne (p : Policy K H) (r : Register K H D) {op : Op K H D} {k : K}
    (h : opKey op ≠ k) : (step p r op).1.grants.get k = r.grants.get k := by
  have change := step_change p r op
  generalize (step p r op).1 = r' at change
  cases change with
  | idle => rfl
  | fresh j hd d shape =>
      subst shape
      exact (Go.Map.get_set _ _ _ _).trans (if_neg fun e => h e.symm)
  | refresh j g d held data =>
      have hj := opKey_of_refreshed data
      exact (Go.Map.get_set _ _ _ _).trans (if_neg fun e => h (hj.trans e.symm))
  | ended j g held ending =>
      have hj := opKey_of_ends ending
      exact (Go.Map.get_delete _ _ _).trans (if_neg fun e => h (hj.trans e.symm))

/-- The data an operation gives a grant. -/
def opData : Op K H D → Option D
  | .take _ _ d | .renew _ _ _ d => some d
  | .drop _ _ _ | .expire _ _ => none

theorem opData_of_refreshed {k : K} {g : Grant H D} {op : Op K H D} {d : D}
    (h : refreshed k g op = some d) : opData op = some d := by
  cases op with
  | take | renew =>
      simp only [refreshed, Option.ite_none_right_eq_some] at h
      exact h.2
  | drop | expire => cases h

/-- What every grant's data satisfies, and the data of the operation, is kept. -/
theorem data_step {P : D → Prop} (p : Policy K H) {r : Register K H D} {op : Op K H D}
    (hr : ∀ k g, r.grants.get k = some g → P g.data) (hop : ∀ d, opData op = some d → P d)
    (k : K) (g : Grant H D) (h : (step p r op).1.grants.get k = some g) : P g.data := by
  have change := step_change p r op
  generalize (step p r op).1 = r' at change h
  cases change with
  | idle => exact hr k g h
  | fresh j hd d shape =>
      simp only [mint, Go.Map.get_set] at h
      split at h
      · cases h
        exact hop d (shape ▸ rfl)
      · exact hr k g h
  | refresh j u d held data =>
      simp only [put, Go.Map.get_set] at h
      split at h
      · cases h
        exact hop d (opData_of_refreshed data)
      · exact hr k g h
  | ended j u =>
      simp only [remove, Go.Map.get_delete] at h
      split at h
      · cases h
      · exact hr k g h

/-- Grants exist only for keys and holders the policy admits. -/
structure Admitted (p : Policy K H) (r : Register K H D) : Prop where
  key : ∀ k g, r.grants.get k = some g → p.key k = true
  holder : ∀ k g, r.grants.get k = some g → p.holder g.holder = true

omit [DecidableEq H] in
theorem admitted_empty (p : Policy K H) : Admitted p (empty : Register K H D) := by
  constructor <;> intro k g h <;> simp [empty] at h

theorem admitted_change {p : Policy K H} {r r' : Register K H D} {op : Op K H D}
    (hr : Admitted p r) (change : Change p r op r') : Admitted p r' := by
  cases change with
  | idle => exact hr
  | fresh k h d shape free key holder room =>
      constructor
      all_goals
        intro j g hj
        simp only [mint, Go.Map.get_set] at hj
        split at hj
        · cases hj; subst j; assumption
      · exact hr.key j g hj
      · exact hr.holder j g hj
  | refresh k g d held data =>
      constructor
      all_goals
        intro j u hj
        simp only [put, Go.Map.get_set] at hj
        split at hj
      · subst j; exact hr.key k g held
      · exact hr.key j u hj
      · cases hj; exact hr.holder k g held
      · exact hr.holder j u hj
  | ended k g held ending =>
      constructor
      all_goals
        intro j u hj
        simp only [remove, Go.Map.get_delete] at hj
        split at hj
        · cases hj
      · exact hr.key j u hj
      · exact hr.holder j u hj

theorem admitted_run (p : Policy K H) {r : Register K H D} (hr : Admitted p r)
    (ops : List (Op K H D)) : Admitted p (run p r ops) := by
  induction ops generalizing r with
  | nil => exact hr
  | cons op ops ih => exact ih (admitted_change hr (step_change p r op))

end Register
end Fencing
