import Mathlib.Data.List.Basic
import Clusdr.Go.JsonText

/-!
Reading back what was written. Each part is read with the text that follows it:
a string ends at its quote and a number where no more of it can follow.
-/

namespace Go.Json

/-! Strings. -/

theorem hexVal_digitChar : ∀ n < 16, hexVal (Nat.digitChar n) = some n := by decide

theorem toNat_lt_of_mem {r : Char} (h : r.toNat < 32 ∨ r = '<' ∨ r = '>' ∨ r = '&') :
    r.toNat < 256 := by
  rcases h with h | rfl | rfl | rfl
  · omega
  all_goals decide

/-- An escape of four digits stands for its character. -/
theorem unescape_hex {a b c d : Char} {r : Char} (rest : List Char)
    (h : hex4 a b c d = some r.toNat) (hr : r.toNat < 0xD800) :
    unescape ('\\' :: 'u' :: a :: b :: c :: d :: rest) = some (r, rest) := by
  have hs : ¬ (0xD800 ≤ r.toNat ∧ r.toNat < 0xE000) := by omega
  simp only [unescape, h, if_neg hs, Char.ofNat_toNat]

theorem unescape_raw {r : Char} (rest : List Char) (hr : r ≠ '\\') (h : ¬ r.toNat < 32) :
    unescape (r :: rest) = some (r, rest) := by
  have hor : ¬ (r = '\\' ∨ r.toNat < 32) := by simp [hr, h]
  unfold unescape
  split
  · rename_i heq
    exact absurd (List.cons.inj heq).1 hr
  · rename_i heq
    exact absurd (List.cons.inj heq).1 hr
  · rename_i heq
    obtain ⟨rfl, rfl⟩ := List.cons.inj heq
    rw [if_neg hor]
  · rename_i heq
    exact absurd heq (by simp)

theorem unescape_escape (r : Char) (rest : List Char) :
    unescape (escape r ++ rest) = some (r, rest) := by
  unfold escape
  split
  · rename_i h
    rcases h with rfl | rfl <;> rfl
  · rename_i h
    have hb : r ≠ '\\' := fun e => h (.inr e)
    have hchar : ∀ n, r.toNat = n → r = Char.ofNat n := fun n e => by rw [← e, Char.ofNat_toNat]
    split
    · rename_i e; rw [hchar _ e]; rfl
    · rename_i e; rw [hchar _ e]; rfl
    · rename_i e; rw [hchar _ e]; rfl
    · rename_i e; rw [hchar _ e]; rfl
    · rename_i e; rw [hchar _ e]; rfl
    · split
      · rename_i hlow
        have hlt := toNat_lt_of_mem hlow
        apply unescape_hex rest _ (by omega)
        have h0 : hexVal '0' = some 0 := rfl
        rw [hex4, h0, hexVal_digitChar _ (by omega), hexVal_digitChar _ (by omega)]
        simp only [bind, pure, Option.bind]
        congr 1
        omega
      · rename_i hlow
        split
        · rename_i hsep
          apply unescape_hex rest _ (by omega)
          have h0 : hexVal '0' = some 0 := rfl
          have h2 : hexVal '2' = some 2 := rfl
          rw [hex4, h0, h2, hexVal_digitChar _ (by omega)]
          simp only [bind, pure, Option.bind]
          congr 1
          omega
        · exact unescape_raw rest hb fun e => hlow (.inl e)

theorem unquote_close (fuel : Nat) (rest : List Char) :
    unquote fuel ('\x22' :: rest) = some ([], rest) := by
  cases fuel <;> rfl

theorem unquote_step {fuel : Nat} {text text' rest : List Char} {r : Char} {rs : List Char}
    (hq : text.head? ≠ some '\x22') (hr : unescape text = some (r, text'))
    (hrs : unquote fuel text' = some (rs, rest)) :
    unquote (fuel + 1) text = some (r :: rs, rest) := by
  unfold unquote
  split
  · exact absurd rfl hq
  · simp only [hr, hrs, bind, pure, Option.bind]

theorem head_escape (r : Char) (rest : List Char) :
    (escape r ++ rest).head? ≠ some '\x22' := by
  unfold escape
  split
  · simp
  · rename_i h
    have hr : r ≠ '\x22' := fun e => h (.inl e)
    split <;> try (split <;> try split)
    all_goals simp [hr]

theorem escape_ne_nil (r : Char) : escape r ≠ [] := by
  unfold escape
  split
  · simp
  · split <;> try (split <;> try split)
    all_goals simp

theorem unquote_flatMap (s rest : List Char) :
    ∀ fuel, (s.flatMap escape).length ≤ fuel →
      unquote fuel (s.flatMap escape ++ '\x22' :: rest) = some (s, rest) := by
  induction s with
  | nil => exact fun fuel _ => unquote_close fuel rest
  | cons r rs ih =>
      intro fuel h
      have hlen : 0 < (escape r).length := List.length_pos_iff.mpr (escape_ne_nil r)
      rw [List.flatMap_cons, List.length_append] at h
      obtain ⟨fuel, rfl⟩ : ∃ k, fuel = k + 1 := ⟨fuel - 1, by omega⟩
      rw [List.flatMap_cons, List.append_assoc]
      exact unquote_step (head_escape r _) (unescape_escape r _) (ih fuel (by omega))

theorem unquote_quoted (s : String) (rest : List Char) :
    ∃ text, quoted s ++ rest = '\x22' :: text ∧
      unquote text.length text = some (s.toList, rest) := by
  refine ⟨s.toList.flatMap escape ++ '\x22' :: rest, by simp [quoted], ?_⟩
  exact unquote_flatMap s.toList rest _ (by simp)

/-! Numbers. -/

/-- What may follow a number. -/
def Ends (rest : List Char) : Prop :=
  ∀ r ∈ rest.head?, r.isDigit = false ∧ r ≠ '.' ∧ r ≠ 'e' ∧ r ≠ 'E'

theorem ends_nil : Ends [] := by simp [Ends]

theorem ends_cons {r : Char} {rest : List Char}
    (h : r.isDigit = false ∧ r ≠ '.' ∧ r ≠ 'e' ∧ r ≠ 'E') : Ends (r :: rest) := by
  simpa [Ends] using h

theorem afterInteger_ends {rest : List Char} (h : Ends rest) :
    afterInteger rest = some (false, rest) := by
  cases rest with
  | nil => rfl
  | cons r rest =>
      obtain ⟨-, hdot, he, hE⟩ := h r rfl
      have hfraction : fraction (r :: rest) = some (false, r :: rest) := by
        unfold fraction
        split
        · rename_i heq; exact absurd (List.cons.inj heq).1 hdot
        · rfl
      have hexponent : exponent (r :: rest) = some (false, r :: rest) := by
        unfold exponent
        split
        · rename_i heq; exact absurd (List.cons.inj heq).1 he
        · rename_i heq; exact absurd (List.cons.inj heq).1 hE
        · rfl
      simp [afterInteger, hfraction, hexponent]

/-- A numeral of more than one digit does not start with zero. -/
theorem toDigits_head (n : Nat) :
    (Nat.toDigits 10 n).head? = some '0' → (Nat.toDigits 10 n).length = 1 := by
  induction n using Nat.strong_induction_on with
  | _ n ih =>
      by_cases hn : n < 10
      · rw [Nat.toDigits_of_lt_base hn]
        exact fun _ => rfl
      · rw [Nat.toDigits_of_base_le (by omega) (by omega)]
        have hpos : n / 10 ≠ 0 := by omega
        have hne := Nat.toDigits_ne_nil (n := n / 10) (b := 10)
        intro h
        rw [List.head?_append_of_ne_nil _ hne] at h
        have hlen := ih (n / 10) (by omega) h
        have hval := Nat.ofDigitChars_ten_toDigits (n := n / 10)
        obtain ⟨c, hc⟩ := List.length_eq_one_iff.mp hlen
        rw [hc] at h hval
        obtain rfl : c = '0' := by simpa using h
        exact absurd hval.symm hpos

theorem takeWhile_digits {digits rest : List Char} (hd : ∀ r ∈ digits, r.isDigit = true)
    (h : Ends rest) : (digits ++ rest).takeWhile Char.isDigit = digits := by
  rw [List.takeWhile_append_of_pos hd]
  cases rest with
  | nil => simp
  | cons r rest => simp [(h r rfl).1]

theorem dropWhile_digits {digits rest : List Char} (hd : ∀ r ∈ digits, r.isDigit = true)
    (h : Ends rest) : (digits ++ rest).dropWhile Char.isDigit = rest := by
  rw [List.dropWhile_append_of_pos hd]
  cases rest with
  | nil => rfl
  | cons r rest => simp [(h r rfl).1]

theorem number_toDigits (negative : Bool) (n : Nat) {rest : List Char} (h : Ends rest) :
    number negative (Nat.toDigits 10 n ++ rest) =
      some (.num (if negative then -n else n), rest) := by
  have hd : ∀ r ∈ Nat.toDigits 10 n, r.isDigit = true := fun r hr =>
    Nat.isDigit_of_mem_toDigits (by decide) (by decide) hr
  have hok : ¬ (Nat.toDigits 10 n = [] ∨
      ((Nat.toDigits 10 n).head? = some '0' ∧ (Nat.toDigits 10 n).length ≠ 1)) := by
    rintro (hnil | ⟨hzero, hlen⟩)
    · exact Nat.toDigits_ne_nil hnil
    · exact hlen (toDigits_head n hzero)
  unfold number
  simp only [takeWhile_digits hd h, dropWhile_digits hd h, if_neg hok, afterInteger_ends h,
    Nat.ofDigitChars_ten_toDigits, bind, pure, Option.bind]
  rfl

theorem scalar_digit {r : Char} (text : List Char) (h : r.isDigit = true) :
    scalar (r :: text) = number false (r :: text) := by
  have hne : ∀ c : Char, c.isDigit = false → r ≠ c := by
    rintro c hc rfl
    rw [h] at hc
    exact absurd hc (by decide)
  unfold scalar
  split
  · rename_i heq; exact absurd (List.cons.inj heq).1 (hne _ (by decide))
  · rename_i heq; exact absurd (List.cons.inj heq).1 (hne _ (by decide))
  · rename_i heq; exact absurd (List.cons.inj heq).1 (hne _ (by decide))
  · rename_i heq; exact absurd (List.cons.inj heq).1 (hne _ (by decide))
  · rename_i heq; exact absurd (List.cons.inj heq).1 (hne _ (by decide))
  · rfl

theorem scalar_intText (n : Int) {rest : List Char} (h : Ends rest) :
    scalar (intText n ++ rest) = some (.num n, rest) := by
  cases n with
  | negSucc n => exact number_toDigits true (n + 1) h
  | ofNat n =>
      have hnum := number_toDigits false n h
      obtain ⟨c, cs, hc⟩ := List.exists_cons_of_ne_nil (Nat.toDigits_ne_nil (n := n) (b := 10))
      have hdigit : c.isDigit = true :=
        Nat.isDigit_of_mem_toDigits (by decide) (by decide) (hc ▸ List.mem_cons_self)
      simp only [intText, hc, List.cons_append] at hnum ⊢
      rw [scalar_digit _ hdigit]
      exact hnum

/-! Documents. -/

theorem skipSpace_cons {r : Char} (text : List Char) (h : isSpace r = false) :
    skipSpace (r :: text) = r :: text := by
  simp [skipSpace, h]

theorem isSpace_of_isDigit {r : Char} (h : r.isDigit = true) : isSpace r = false := by
  have hne : ∀ c : Char, c.isDigit = false → r ≠ c := by
    rintro c hc rfl
    rw [h] at hc
    exact absurd hc (by decide)
  simp [isSpace, hne ' ' (by decide), hne '\t' (by decide), hne '\r' (by decide),
    hne '\n' (by decide)]

/-- A character a value can start with. -/
def Starts (r : Char) : Prop := isSpace r = false ∧ r ≠ ']' ∧ r ≠ '\x7d'

theorem starts_of_isDigit {r : Char} (h : r.isDigit = true) : Starts r := by
  refine ⟨isSpace_of_isDigit h, ?_, ?_⟩
  all_goals
    rintro rfl
    exact absurd h (by decide)

theorem intText_head (n : Int) : ∃ r text, intText n = r :: text ∧ Starts r ∧
    r ≠ '[' ∧ r ≠ '\x7b' := by
  cases n with
  | negSucc n => exact ⟨'-', _, rfl, by simp [Starts, isSpace], by decide, by decide⟩
  | ofNat n =>
      obtain ⟨c, cs, hc⟩ := List.exists_cons_of_ne_nil (Nat.toDigits_ne_nil (n := n) (b := 10))
      have hdigit : c.isDigit = true :=
        Nat.isDigit_of_mem_toDigits (by decide) (by decide) (hc ▸ List.mem_cons_self)
      refine ⟨c, cs, hc, starts_of_isDigit hdigit, ?_, ?_⟩
      all_goals
        rintro rfl
        exact absurd hdigit (by decide)

theorem value_scalar (d : Nat) {r : Char} (text : List Char) (hs : isSpace r = false)
    (ha : r ≠ '[') (ho : r ≠ '\x7b') : value d (r :: text) = scalar (r :: text) := by
  cases d with
  | zero => simp only [value, skipSpace_cons text hs]
  | succ d =>
      simp only [value, skipSpace_cons text hs]
      split
      · rename_i heq; exact absurd (List.cons.inj heq).1 ha
      · rename_i heq; exact absurd (List.cons.inj heq).1 ho
      · rfl

theorem text_head {j : Json} {t : List Char} (h : j.text = some t) :
    ∃ r text, t = r :: text ∧ Starts r := by
  cases j with
  | null => exact ⟨'n', _, (Option.some.inj h).symm, by simp [Starts, isSpace]⟩
  | bool b =>
      cases b with
      | true => exact ⟨'t', _, (Option.some.inj h).symm, by simp [Starts, isSpace]⟩
      | false => exact ⟨'f', _, (Option.some.inj h).symm, by simp [Starts, isSpace]⟩
  | str s => exact ⟨'\x22', _, (Option.some.inj h).symm, by simp [Starts, isSpace]⟩
  | num n =>
      obtain ⟨r, text, hn, hr, -⟩ := intText_head n
      exact ⟨r, text, (Option.some.inj h).symm.trans hn, hr⟩
  | time _ => simp [text] at h
  | arr xs =>
      obtain ⟨t, -, rfl⟩ := Option.map_eq_some_iff.mp h
      exact ⟨'[', _, rfl, by simp [Starts, isSpace]⟩
  | obj fields =>
      obtain ⟨t, -, rfl⟩ := Option.map_eq_some_iff.mp h
      exact ⟨'\x7b', _, rfl, by simp [Starts, isSpace]⟩

theorem textElements_cons {x y : Json} {xs : List Json} {t : List Char}
    (h : textElements (x :: y :: xs) = some t) :
    ∃ a b, x.text = some a ∧ textElements (y :: xs) = some b ∧ t = a ++ ',' :: b := by
  simp only [textElements, Option.bind_eq_bind, Option.bind_eq_some_iff, Option.pure_def,
    Option.some.injEq] at h
  obtain ⟨a, ha, b, hb, rfl⟩ := h
  exact ⟨a, b, ha, hb, rfl⟩

theorem textMembers_one {key : String} {x : Json} {t : List Char}
    (h : textMembers [(key, x)] = some t) :
    ∃ a, x.text = some a ∧ t = quoted key ++ ':' :: a := by
  simp only [textMembers, Option.bind_eq_bind, Option.bind_eq_some_iff, Option.pure_def,
    Option.some.injEq] at h
  obtain ⟨a, ha, rfl⟩ := h
  exact ⟨a, ha, rfl⟩

theorem textMembers_cons {key : String} {x : Json} {f : String × Json}
    {fields : List (String × Json)} {t : List Char}
    (h : textMembers ((key, x) :: f :: fields) = some t) :
    ∃ a b, x.text = some a ∧ textMembers (f :: fields) = some b ∧
      t = quoted key ++ ':' :: a ++ ',' :: b := by
  simp only [textMembers, Option.bind_eq_bind, Option.bind_eq_some_iff, Option.pure_def,
    Option.some.injEq] at h
  obtain ⟨a, ha, b, hb, rfl⟩ := h
  exact ⟨a, b, ha, hb, rfl⟩

theorem textElements_head {x : Json} {xs : List Json} {t : List Char}
    (h : textElements (x :: xs) = some t) : ∃ r text, t = r :: text ∧ Starts r := by
  cases xs with
  | nil => exact text_head h
  | cons y xs =>
      obtain ⟨a, b, ha, -, rfl⟩ := textElements_cons h
      obtain ⟨r, text, rfl, hr⟩ := text_head ha
      exact ⟨r, _, rfl, hr⟩

theorem textMembers_head {f : String × Json} {fields : List (String × Json)} {t : List Char}
    (h : textMembers (f :: fields) = some t) : ∃ text, t = '\x22' :: text := by
  obtain ⟨key, x⟩ := f
  cases fields with
  | nil =>
      obtain ⟨a, -, rfl⟩ := textMembers_one h
      exact ⟨_, rfl⟩
  | cons f fields =>
      obtain ⟨a, b, -, -, rfl⟩ := textMembers_cons h
      exact ⟨_, rfl⟩

theorem ends_comma (text : List Char) : Ends (',' :: text) := ends_cons (by decide)

theorem ends_bracket (text : List Char) : Ends (']' :: text) := ends_cons (by decide)

theorem ends_brace (text : List Char) : Ends ('\x7d' :: text) := ends_cons (by decide)

/-- A key, its colon and its value. -/
theorem member_text {read : List Char → Option (Json × List Char)} (key : String) {x : Json}
    {a rest : List Char} (h : read (a ++ rest) = some (x, rest)) :
    member read (quoted key ++ ':' :: a ++ rest) = some ((key, x), rest) := by
  obtain ⟨text, heq, hkey⟩ := unquote_quoted key (':' :: (a ++ rest))
  rw [show quoted key ++ ':' :: a ++ rest = quoted key ++ (':' :: (a ++ rest)) by simp, heq]
  simp [member, skipSpace_cons, isSpace, hkey, h]

mutual

/-- Reading what was written gives the document back and leaves what follows. -/
theorem value_text (j : Json) (d : Nat) {t : List Char} (rest : List Char)
    (h : j.text = some t) (hd : j.depth ≤ d) (hrest : Ends rest) :
    value d (t ++ rest) = some (j, rest) := by
  cases j with
  | null =>
      obtain rfl := Option.some.inj h
      exact value_scalar d _ (by decide) (by decide) (by decide)
  | bool b =>
      obtain rfl := Option.some.inj h
      cases b with
      | true => exact value_scalar d _ (by decide) (by decide) (by decide)
      | false => exact value_scalar d _ (by decide) (by decide) (by decide)
  | str s =>
      obtain rfl := Option.some.inj h
      obtain ⟨text, heq, hs⟩ := unquote_quoted s rest
      rw [heq, value_scalar d _ (by decide) (by decide) (by decide)]
      simp [scalar, hs]
  | num n =>
      obtain rfl := Option.some.inj h
      obtain ⟨r, text, hn, hr, ha, ho⟩ := intText_head n
      have hval := scalar_intText n hrest
      rw [hn] at hval ⊢
      exact (value_scalar d _ hr.1 ha ho).trans hval
  | time _ => simp [text] at h
  | arr xs =>
      obtain ⟨t, ht, rfl⟩ := Option.map_eq_some_iff.mp h
      obtain ⟨d, rfl⟩ : ∃ k, d = k + 1 := ⟨d - 1, by simp only [depth] at hd; omega⟩
      cases xs with
      | nil =>
          obtain rfl := Option.some.inj ht
          simp [value, skipSpace_cons, isSpace]
      | cons x xs =>
          obtain ⟨r, text, rfl, hr⟩ := textElements_head ht
          have hxs := elements_text (x :: xs) d (((r :: text) ++ ']' :: rest).length) rest (by simp)
            ht (by simp only [depth] at hd; omega) (by simp)
          have hopen : value (d + 1) ('[' :: ((r :: text) ++ ']' :: rest)) =
              (elements (value d) (((r :: text) ++ ']' :: rest).length)
                ((r :: text) ++ ']' :: rest)).map fun (xs, text) => (.arr xs, text) := by
            simp only [value, skipSpace_cons _ (show isSpace '[' = false by decide),
              List.cons_append, skipSpace_cons _ hr.1]
            split
            · rename_i heq; exact absurd (List.cons.inj heq).1 hr.2.1
            · rfl
          rw [show '[' :: (r :: text ++ [']']) ++ rest = '[' :: ((r :: text) ++ ']' :: rest) by simp,
            hopen, hxs]
          rfl
  | obj fields =>
      obtain ⟨t, ht, rfl⟩ := Option.map_eq_some_iff.mp h
      obtain ⟨d, rfl⟩ : ∃ k, d = k + 1 := ⟨d - 1, by simp only [depth] at hd; omega⟩
      cases fields with
      | nil =>
          obtain rfl := Option.some.inj ht
          simp [value, skipSpace_cons, isSpace]
      | cons f fields =>
          obtain ⟨text, rfl⟩ := textMembers_head ht
          have hfs := members_text (f :: fields) d ((('\x22' :: text) ++ '\x7d' :: rest).length) rest
            (by simp) ht (by simp only [depth] at hd; omega) (by simp)
          have hopen : value (d + 1) ('\x7b' :: (('\x22' :: text) ++ '\x7d' :: rest)) =
              (members (value d) ((('\x22' :: text) ++ '\x7d' :: rest).length)
                (('\x22' :: text) ++ '\x7d' :: rest)).map fun (fields, text) =>
                  (.obj fields, text) := by
            simp [value, skipSpace_cons, isSpace]
          rw [show '\x7b' :: ('\x22' :: text ++ ['\x7d']) ++ rest =
            '\x7b' :: (('\x22' :: text) ++ '\x7d' :: rest) by simp, hopen, hfs]
          rfl

theorem elements_text (xs : List Json) (d fuel : Nat) {t : List Char} (rest : List Char)
    (hne : xs ≠ []) (h : textElements xs = some t) (hd : depthElements xs ≤ d)
    (hfuel : t.length < fuel) :
    elements (value d) fuel (t ++ ']' :: rest) = some (xs, rest) := by
  obtain ⟨fuel, rfl⟩ : ∃ k, fuel = k + 1 := ⟨fuel - 1, by omega⟩
  match xs, hne with
  | [x], _ =>
      have hx := value_text x d (']' :: rest) h (by simpa [depthElements] using hd)
        (ends_bracket rest)
      simp [elements, hx, skipSpace_cons, isSpace]
  | x :: y :: xs, _ =>
      obtain ⟨a, b, ha, hb, rfl⟩ := textElements_cons h
      rw [depthElements, Nat.max_le] at hd
      have hx := value_text x d (',' :: (b ++ ']' :: rest)) ha hd.1 (ends_comma _)
      have hxs := elements_text (y :: xs) d fuel rest (by simp) hb hd.2 (by simp at hfuel; omega)
      simp [elements, hx, hxs, skipSpace_cons, isSpace]

theorem members_text (fields : List (String × Json)) (d fuel : Nat) {t : List Char}
    (rest : List Char) (hne : fields ≠ []) (h : textMembers fields = some t)
    (hd : depthMembers fields ≤ d) (hfuel : t.length < fuel) :
    members (value d) fuel (t ++ '\x7d' :: rest) = some (fields, rest) := by
  obtain ⟨fuel, rfl⟩ : ∃ k, fuel = k + 1 := ⟨fuel - 1, by omega⟩
  match fields, hne with
  | [(key, x)], _ =>
      obtain ⟨a, ha, rfl⟩ := textMembers_one h
      have hx := value_text x d ('\x7d' :: rest) ha (by simpa [depthMembers] using hd)
        (ends_brace rest)
      simp only [members, member_text key hx]
      simp [skipSpace_cons, isSpace]
  | (key, x) :: f :: fields, _ =>
      obtain ⟨a, b, ha, hb, rfl⟩ := textMembers_cons h
      rw [depthMembers, Nat.max_le] at hd
      have hx := value_text x d (',' :: (b ++ '\x7d' :: rest)) ha hd.1 (ends_comma _)
      have hfs := members_text (f :: fields) d fuel rest (by simp) hb hd.2
        (by simp at hfuel; omega)
      rw [show quoted key ++ ':' :: a ++ ',' :: b ++ '\x7d' :: rest =
        quoted key ++ ':' :: a ++ (',' :: (b ++ '\x7d' :: rest)) by simp]
      simp only [members, member_text key hx]
      simp [skipSpace_cons, isSpace, hfs]

end

theorem exists_textMembers {fields : List (String × Json)}
    (h : ∀ f ∈ fields, ∃ t, f.2.text = some t) : ∃ t, textMembers fields = some t := by
  induction fields with
  | nil => exact ⟨[], rfl⟩
  | cons f fields ih =>
      obtain ⟨t, ht⟩ := ih fun f hf => h f (List.mem_cons_of_mem _ hf)
      obtain ⟨a, ha⟩ := h f List.mem_cons_self
      cases fields with
      | nil => exact ⟨quoted f.1 ++ ':' :: a, by simp [textMembers, ha]⟩
      | cons g fields =>
          exact ⟨quoted f.1 ++ ':' :: a ++ ',' :: t, by simp [textMembers, ha, ht]⟩

theorem depthMembers_le {fields : List (String × Json)} {d : Nat}
    (h : ∀ f ∈ fields, f.2.depth ≤ d) : depthMembers fields ≤ d := by
  induction fields with
  | nil => exact Nat.zero_le d
  | cons f fields ih =>
      rw [depthMembers, Nat.max_le]
      exact ⟨h f List.mem_cons_self, ih fun f hf => h f (List.mem_cons_of_mem _ hf)⟩

/-- What `json.Marshal` wrote, `json.Unmarshal` reads, up to its limit on nesting. -/
theorem parse_text {j : Json} {t : List Char} (h : j.text = some t)
    (hd : j.depth ≤ maxNestingDepth) : parse t = some j := by
  have hv := value_text j maxNestingDepth [] h hd ends_nil
  rw [List.append_nil] at hv
  simp [parse, hv, skipSpace]

end Go.Json
