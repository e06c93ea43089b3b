import Mathlib.Algebra.Ring.Int.Defs
import Clusdr.Go.Time

/-!
`encoding/json` at the level of document trees: which fields a struct writes,
which it omits, which keys of a document a field answers to, and what it holds
when they are absent, `null` or repeated. Writing and reading back the leaves
(strings, integers, RFC 3339 times) is not opened up: a leaf of the tree is the
value itself. Times the format cannot write are refused. A slice that a document
gives twice is read afresh: Go decodes over the elements it had.
-/

namespace Go

inductive Json where
  | null
  | bool (b : Bool)
  | str (s : String)
  | num (n : Int)
  | time (t : Time)
  | arr (xs : List Json)
  | obj (fields : List (String × Json))

theorem bind_eq_ok {ε α β : Type} {x : Except ε α} {f : α → Except ε β} {b : β} :
    (x >>= f) = .ok b ↔ ∃ a, x = .ok a ∧ f a = .ok b := by
  cases x with
  | error e => simp [bind, Except.bind]
  | ok a => simp [bind, Except.bind]

namespace Json

inductive Error where
  | timeRange
  | mismatch
deriving DecidableEq, Repr

/-- `foldRune`. Of the characters beyond ASCII only these two fold to a letter of it. -/
def foldRune (r : Char) : Char :=
  if r = '\u017f' then 'S' else if r = '\u212a' then 'K' else r.toUpper

def foldName (name : String) : List Char := name.toList.map foldRune

/-- Whether the struct field `key` answers to the key `k` of a document. Two fields of a
struct differ by more than case here, so an exact match has nothing to decide. -/
def names (key k : String) : Bool := foldName k = foldName key

/-- A struct field tagged `omitempty`. -/
def omitEmpty (empty : Bool) (key : String) (value : Json) : List (String × Json) :=
  if empty then [] else [(key, value)]

theorem eq_of_mem_omitEmpty {empty : Bool} {key : String} {j : Json} {f : String × Json}
    (h : f ∈ omitEmpty empty key j) : f = (key, j) := by
  unfold omitEmpty at h
  split at h
  · exact absurd h List.not_mem_nil
  · exact List.mem_singleton.mp h

@[simp] theorem ok_bind {α β : Type} (a : α) (f : α → Except Error β) :
    ((.ok a : Except Error α) >>= f) = f a := rfl

def ofTime (t : Time) : Except Error Json :=
  if t.inJSONRange then .ok (.time t) else .error .timeRange

/-! Decoding over the value that is there, which `null` leaves as it was. -/

def toStr (old : String) : Json → Except Error String
  | .str s => .ok s
  | .null => .ok old
  | _ => .error .mismatch

def toUInt64 (old : UInt64) : Json → Except Error UInt64
  | .num n => if 0 ≤ n ∧ n < 2 ^ 64 then .ok (UInt64.ofNat n.toNat) else .error .mismatch
  | .null => .ok old
  | _ => .error .mismatch

def toInt64 (old : Int64) : Json → Except Error Int64
  | .num n => if -2 ^ 63 ≤ n ∧ n < 2 ^ 63 then .ok (Int64.ofInt n) else .error .mismatch
  | .null => .ok old
  | _ => .error .mismatch

def toTime (old : Time) : Json → Except Error Time
  | .time t => .ok t
  | .null => .ok old
  | _ => .error .mismatch

/-- A slice, which `null` makes nil. -/
def toList {α : Type} (decode : Json → Except Error α) (_ : List α) :
    Json → Except Error (List α)
  | .arr xs => xs.mapM decode
  | .null => .ok []
  | _ => .error .mismatch

/-- The members of a document that name a field, decoded one over the other. -/
def readMembers {α : Type} (into : α → Json → Except Error α) (key : String)
    (fields : List (String × Json)) (old : α) : Except Error α :=
  fields.foldlM (fun old f => if names key f.1 then into old f.2 else .ok old) old

/-- One field of a struct, which starts as its zero value. -/
def read {α : Type} (j : Json) (into : α → Json → Except Error α) (zero : α) (key : String) :
    Except Error α :=
  match j with
  | .obj fields => readMembers into key fields zero
  | .null => .ok zero
  | _ => .error .mismatch

def ofUInt64 (n : UInt64) : Json := .num n.toNat

def ofInt64 (n : Int64) : Json := .num n.toInt

theorem names_self (key : String) : names key key = true := decide_eq_true rfl

theorem names_comm (key k : String) : names key k = names k key :=
  decide_eq_decide.mpr eq_comm

section Members

variable {α : Type} (into : α → Json → Except Error α) (key : String) (old : α)

@[simp] theorem read_obj (fields : List (String × Json)) (zero : α) :
    (obj fields).read into zero key = readMembers into key fields zero := rfl

@[simp] theorem readMembers_nil : readMembers into key [] old = .ok old := rfl

@[simp] theorem readMembers_append (xs ys : List (String × Json)) :
    readMembers into key (xs ++ ys) old = readMembers into key xs old >>= readMembers into key ys :=
  List.foldlM_append

variable {key} {k : String}

@[simp] theorem readMembers_cons_same (h : names key k = true) (v : Json)
    (xs : List (String × Json)) :
    readMembers into key ((k, v) :: xs) old = into old v >>= readMembers into key xs := by
  rw [readMembers, List.foldlM_cons, if_pos h]
  rfl

@[simp high] theorem readMembers_cons_other (h : names key k = false) (v : Json)
    (xs : List (String × Json)) :
    readMembers into key ((k, v) :: xs) old = readMembers into key xs old := by
  rw [readMembers, List.foldlM_cons, if_neg (by rw [h]; exact Bool.false_ne_true)]
  rfl

@[simp] theorem readMembers_omitEmpty_same (h : names key k = true) (empty : Bool) (v : Json) :
    readMembers into key (omitEmpty empty k v) old =
      if empty = true then .ok old else into old v := by
  cases empty with
  | true => rfl
  | false =>
      rw [omitEmpty, if_neg Bool.false_ne_true, if_neg Bool.false_ne_true,
        readMembers_cons_same into old h]
      exact bind_pure _

@[simp high] theorem readMembers_omitEmpty_other (h : names key k = false) (empty : Bool)
    (v : Json) :
    readMembers into key (omitEmpty empty k v) old = .ok old := by
  cases empty with
  | true => rfl
  | false =>
      rw [omitEmpty, if_neg Bool.false_ne_true, readMembers_cons_other into old h]
      rfl

end Members

/-- An omitted field decodes to the default it was omitted for. -/
@[simp] theorem ok_of_default {α : Type} [DecidableEq α] (a d : α) :
    (if a = d then (.ok d : Except Error α) else .ok a) = .ok a := by
  split
  · rename_i h
    rw [h]
  · rfl

@[simp] theorem toStr_str (old s : String) : toStr old (.str s) = .ok s := rfl

@[simp] theorem toUInt64_ofUInt64 (old n : UInt64) : toUInt64 old (ofUInt64 n) = .ok n := by
  have h := n.toNat_lt
  have hn : (0 : Int) ≤ (n.toNat : Int) ∧ (n.toNat : Int) < 2 ^ 64 := by omega
  simp only [toUInt64, ofUInt64, hn, and_self, ite_true, Int.toNat_natCast, UInt64.ofNat_toNat]

@[simp] theorem toInt64_ofInt64 (old n : Int64) : toInt64 old (ofInt64 n) = .ok n := by
  have h := n.toInt_lt
  have h' := n.le_toInt
  simp only [toInt64, ofInt64, h, h', and_self, ite_true, Int64.ofInt_toInt]

theorem toTime_ofTime {t : Time} {j : Json} (h : ofTime t = .ok j) (old : Time) :
    toTime old j = .ok t := by
  unfold ofTime at h
  split at h
  · cases h; rfl
  · cases h

theorem mapM_decode {α : Type} {encode : α → Except Error Json} {decode : Json → Except Error α}
    (law : ∀ a j, encode a = .ok j → decode j = .ok a) (as : List α) (js : List Json)
    (h : as.mapM encode = .ok js) : js.mapM decode = .ok as := by
  induction as generalizing js with
  | nil => cases h; rfl
  | cons a as ih =>
      rw [List.mapM_cons] at h
      cases ha : encode a with
      | error e => simp only [ha, bind, Except.bind, reduceCtorEq] at h
      | ok j =>
          cases has : as.mapM encode with
          | error e => simp only [ha, has, bind, Except.bind, reduceCtorEq] at h
          | ok rest =>
              simp only [ha, has, bind, Except.bind, pure, Except.pure, Except.ok.injEq] at h
              subst h
              simp only [List.mapM_cons, law a j ha, ih rest has, bind, Except.bind, pure,
                Except.pure]

end Json
end Go
