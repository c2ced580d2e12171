import Peripheral.Proofs.Json.Reader
import Peripheral.Proofs.Toml.Quotes
import Peripheral.Toml.Reader
import Peripheral.Toml.Writer

/-
  Peripheral.Proofs.Toml.Scalar — reading back one value of a settings file, and one name.

  What is written on the right of an equals sign is read back up to the end of its line
  (`value?_write`). A whole number is tried as a date and as a float first: it is no date, since
  nothing but a digit or the end of the line follows its digits, and no float, since it has
  neither a fraction nor an exponent.
-/

namespace Peripheral.Toml

open Text.Numeral (write_ne_nil digits?_write takeWhile_front dropWhile_front)

theorem ne_of_test {p : Char → Bool} {c d : Char} (hc : p c = true) (hd : p d = false) : c ≠ d := by
  intro h
  rw [h, hd] at hc
  cases hc

/-! ## (1) Whole numbers -/

section Digits

variable {p : Char → Bool} {front rest : List Char}

theorem digits?_cons_eq_none {c : Char} (hc : p c = false) (s : List Char) : digits? p (c :: s) = none := by
  rw [digits?.eq_def]
  simp [hc]

/-- A run of digits is read up to the end of the line. -/
theorem digits?_front (hfront : ∀ c ∈ front, p c = true) (hne : front ≠ []) (hend : p '\n' = false)
    (hunderscore : p '_' = false) (rest : List Char) :
    digits? p (front ++ '\n' :: rest) = some (front, '\n' :: rest) := by
  induction front with
  | nil => exact absurd rfl hne
  | cons c front ih =>
    obtain ⟨hc, hmore⟩ := List.forall_mem_cons.mp hfront
    cases front with
    | nil => simp [digits?, hc, digits?_cons_eq_none hend, hend]
    | cons d front =>
      have hd : d ≠ '_' := ne_of_test (hmore d List.mem_cons_self) hunderscore
      have hread := ih hmore (by simp)
      rw [List.cons_append] at hread
      simp [digits?, hc, hd, hread]

end Digits

section Numbers

variable {n : Nat} {i : Int} {rest : List Char}

theorem isDigit_of_mem_write {c : Char} (hc : c ∈ Text.Numeral.write 10 n) : isDigit c = true :=
  Json.isDigit_of_mem_write hc

/-- The digits of a number begin with a digit. -/
theorem exists_write_eq_cons (n : Nat) : ∃ c s, Text.Numeral.write 10 n = c :: s ∧ isDigit c = true := by
  obtain ⟨c, s, hs⟩ := List.exists_cons_of_ne_nil (@write_ne_nil 10 n)
  exact ⟨c, s, hs, @isDigit_of_mem_write n c (by simp [hs])⟩

/-- Only zero begins with a zero, and nothing follows it. -/
theorem eq_of_leading_zero {s : List Char} (h : Text.Numeral.write 10 n ++ rest = '0' :: s) :
    Text.Numeral.write 10 n = ['0'] ∧ s = rest := by
  obtain ⟨c, t, ht, -⟩ := exists_write_eq_cons n
  rw [ht, List.cons_append, List.cons.injEq] at h
  obtain ⟨rfl, hs⟩ := h
  have hhead : (Text.Numeral.write 10 n).head? = some '0' := by rw [ht, List.head?_cons]
  have hlength := Text.Numeral.length_write_of_head? (by omega) (by omega) hhead
  have ht' : t = [] := by
    rw [ht, List.length_cons] at hlength
    exact List.length_eq_zero_iff.mp (Nat.succ.inj hlength)
  rw [ht, ← hs, ht']
  exact ⟨rfl, rfl⟩

theorem whole?_write :
    whole? (Text.Numeral.write 10 n ++ '\n' :: rest) = some (Text.Numeral.write 10 n, '\n' :: rest) := by
  unfold whole?
  split
  · next h =>
    obtain ⟨hzero, rfl⟩ := eq_of_leading_zero h
    rw [hzero]
  · exact digits?_front (fun _ hc => isDigit_of_mem_write hc) write_ne_nil (by decide) (by decide) rest

/-- A minus sign is written in front of negative numbers only. -/
theorem sign_writeInt (i : Int) (rest : List Char) :
    sign (Json.writeInt i ++ rest) = (decide (i < 0), Text.Numeral.write 10 i.natAbs ++ rest) := by
  cases i with
  | negSucc n =>
    show (true, _) = (decide (Int.negSucc n < 0), _)
    rw [decide_eq_true (Int.negSucc_lt_zero n)]
    rfl
  | ofNat n =>
    obtain ⟨c, s, hs, hc⟩ := exists_write_eq_cons n
    have hplus : c ≠ '+' := ne_of_test hc (by decide)
    have hminus : c ≠ '-' := ne_of_test hc (by decide)
    have hsign : ¬ (Int.ofNat n < 0) := by simp
    rw [decide_eq_false hsign]
    show sign (Text.Numeral.write 10 n ++ rest) = (false, Text.Numeral.write 10 n ++ rest)
    rw [hs, List.cons_append]
    unfold sign
    split <;> simp_all

theorem integer?_writeInt (hi : inWord i = some (.int i)) :
    integer? (Json.writeInt i ++ '\n' :: rest) = some (.int i, '\n' :: rest) := by
  have hradix : ∀ c s, c ≠ '\n' → Json.writeInt i ++ '\n' :: rest ≠ '0' :: c :: s := by
    intro c s hc h
    cases i with
    | negSucc n => cases h
    | ofNat n =>
      have hrest := (eq_of_leading_zero h).2
      rw [List.cons.injEq] at hrest
      exact hc hrest.1
  have hsigned : (if i < 0 then -(i.natAbs : Int) else i.natAbs) = i := by
    split <;> omega
  unfold integer?
  split
  · exact absurd ‹_› (hradix 'x' _ (by decide))
  · exact absurd ‹_› (hradix 'o' _ (by decide))
  · exact absurd ‹_› (hradix 'b' _ (by decide))
  · rw [sign_writeInt]
    simp only [whole?_write, Option.bind_eq_bind, Option.bind_some, digits?_write (by omega : 1 < 10) (by omega),
      decide_eq_true_eq, hsigned, hi]

theorem decimal?_writeInt (i : Int) (rest : List Char) : decimal? (Json.writeInt i ++ '\n' :: rest) = none := by
  unfold decimal?
  rw [sign_writeInt]
  simp [whole?_write, exponent?]

theorem special?_writeInt (i : Int) (rest : List Char) : special? (Json.writeInt i ++ '\n' :: rest) = none := by
  unfold special?
  rw [sign_writeInt]
  obtain ⟨c, s, hs, hc⟩ := exists_write_eq_cons i.natAbs
  have hi : c ≠ 'i' := ne_of_test hc (by decide)
  have hn : c ≠ 'n' := ne_of_test hc (by decide)
  rw [hs, List.cons_append]
  dsimp only
  split <;> simp_all

/-- What is left after a number of digits. -/
theorem field?_eq_some {count lo hi m : Nat} {s t : List Char} (h : field? count lo hi s = some (m, t)) :
    (s.take count).all isDigit = true ∧ t = s.drop count := by
  unfold field? at h
  dsimp only at h
  split at h
  · next hdigits =>
    rw [Bool.and_eq_true] at hdigits
    split at h
    · split at h
      · cases h
        exact ⟨hdigits.2, rfl⟩
      · cases h
    · cases h
  · cases h

/-- After some digits of a line there is another digit or the end of the line, and no mark. -/
theorem expect?_of_field? {count lo hi m : Nat} {front s : List Char} {mark : Char}
    (hfront : ∀ c ∈ front, isDigit c = true) (hmark : isDigit mark = false ∧ mark ≠ '\n')
    (h : field? count lo hi (front ++ '\n' :: rest) = some (m, s)) : Json.expect? mark s = none := by
  obtain ⟨hdigits, rfl⟩ := field?_eq_some h
  by_cases hcount : count ≤ front.length
  · rw [List.drop_append_of_le_length hcount]
    cases hs : front.drop count with
    | nil => exact if_neg hmark.2
    | cons c t =>
      have hc : isDigit c = true := hfront c (List.mem_of_mem_drop (by rw [hs]; exact List.mem_cons_self))
      exact if_neg (ne_of_test hc hmark.1).symm
  · -- the end of the line is no digit
    obtain ⟨k, rfl⟩ : ∃ k, count = front.length + (k + 1) := ⟨count - front.length - 1, by omega⟩
    rw [List.take_length_add_append, List.take_succ_cons, List.all_append, Bool.and_eq_true] at hdigits
    exact absurd hdigits.2 (by simp [isDigit])

theorem datetimeRest?_digits {front : List Char} (hfront : ∀ c ∈ front, isDigit c = true) (rest : List Char) :
    datetimeRest? (front ++ '\n' :: rest) = none := by
  have hdate : date? (front ++ '\n' :: rest) = none := by
    unfold date?
    cases h : field? 4 0 9999 (front ++ '\n' :: rest) with
    | none => rfl
    | some r =>
      have hmark : Json.expect? '-' r.2 = none := expect?_of_field? hfront (by decide) h
      simp [hmark]
  have htime : time? (front ++ '\n' :: rest) = none := by
    unfold time?
    cases h : field? 2 0 23 (front ++ '\n' :: rest) with
    | none => rfl
    | some r =>
      have hmark : Json.expect? ':' r.2 = none := expect?_of_field? hfront (by decide) h
      simp [hmark]
  rw [datetimeRest?, hdate]
  exact htime

theorem datetime?_writeInt (i : Int) (rest : List Char) : datetime? (Json.writeInt i ++ '\n' :: rest) = none := by
  unfold datetime?
  cases i with
  | ofNat n =>
    have hdigits : datetimeRest? (Text.Numeral.write 10 n ++ '\n' :: rest) = none :=
      datetimeRest?_digits (fun _ => isDigit_of_mem_write) rest
    exact congrArg (Option.map _) hdigits
  | negSucc n =>
    have hminus : ∀ s, datetimeRest? ('-' :: s) = none := by
      intro s
      simp [datetimeRest?, date?, time?, field?, isDigit]
    exact congrArg (Option.map _) (hminus _)

theorem number?_writeInt (hi : inWord i = some (.int i)) :
    number? (Json.writeInt i ++ '\n' :: rest) = some (.int i, '\n' :: rest) := by
  rw [number?, datetime?_writeInt, decimal?_writeInt, special?_writeInt, integer?_writeInt hi]
  rfl

end Numbers

/-! ## (2) Values -/

section Values

variable {j : Json} {text : List Char} {c : Char}

/-- What a value on the right of an equals sign begins with. -/
def IsValueStart (c : Char) : Prop := c ∈ ['"', '\'', 't', 'f', '-'] ∨ isDigit c = true

theorem IsValueStart.ne {d : Char} (hc : IsValueStart c) (hd : d ∉ ['"', '\'', 't', 'f', '-'] ∧ isDigit d = false) :
    c ≠ d := by
  rcases hc with hmem | hdigit
  · intro h
    exact hd.1 (h ▸ hmem)
  · exact ne_of_test hdigit hd.2

theorem IsValueStart.not_isSpace (hc : IsValueStart c) : isSpace c = false := by
  have hblank : c ≠ ' ' := hc.ne (by decide)
  have htab : c ≠ '\t' := hc.ne (by decide)
  simp [isSpace, hblank, htab]

theorem quotes_write_head (style : Quotes) (s : List Char) :
    ∃ c t, Quotes.write style s = c :: t ∧ (c = '"' ∨ c = '\'') := by
  cases style with
  | basic => exact ⟨_, _, rfl, .inl rfl⟩
  | literal => exact ⟨_, _, rfl, .inr rfl⟩
  | longBasic => exact ⟨_, _, rfl, .inl rfl⟩
  | longLiteral => exact ⟨_, _, rfl, .inr rfl⟩

theorem writeValue?_int {i : Int} (h : writeValue? (.int i) = some text) :
    inWord i = some (.int i) ∧ text = Json.writeInt i := by
  rw [writeValue?] at h
  split at h
  · next hi =>
    cases h
    exact ⟨if_pos hi, rfl⟩
  · cases h

theorem writeValue?_head (h : writeValue? j = some text) : ∃ c s, text = c :: s ∧ IsValueStart c := by
  cases j with
  | str s =>
    obtain ⟨c, t, ht, hc⟩ := quotes_write_head (Quotes.of s.toList) s.toList
    cases h
    refine ⟨c, t, ht, .inl ?_⟩
    rcases hc with rfl | rfl <;> decide
  | int i =>
    obtain ⟨-, rfl⟩ := writeValue?_int h
    obtain ⟨c, s, hs, hc⟩ := Json.writeInt_head i
    refine ⟨c, s, hs, ?_⟩
    rcases hc with hdigit | rfl
    · exact .inr hdigit
    · exact .inl (by decide)
  | bool b =>
    cases h
    cases b
    · exact ⟨_, _, rfl, .inl (by decide)⟩
    · exact ⟨_, _, rfl, .inl (by decide)⟩
  | _ => cases h

theorem value?_eq_scalar? (hc : IsValueStart c) (fuel depth : Nat) (s : List Char) :
    value? (fuel + 1) depth (c :: s) = scalar? (c :: s) := by
  have hbracket : c ≠ '[' := hc.ne (by decide)
  have hbrace : c ≠ '\x7b' := hc.ne (by decide)
  rw [value?.eq_def]
  simp [hbracket, hbrace]

theorem scalar?_str (s : String) (rest : List Char) :
    scalar? (Quotes.write (Quotes.of s.toList) s.toList ++ '\n' :: rest) = some (.str s, '\n' :: rest) := by
  have hend : ∀ c ∈ ('\n' :: rest).head?, c ≠ '"' ∧ c ≠ '\'' := by simp
  have hread := string?_write s hend
  obtain ⟨c, t, ht, hc⟩ := quotes_write_head (Quotes.of s.toList) s.toList
  rw [ht, List.cons_append] at hread ⊢
  rw [scalar?, if_pos hc, hread]
  rfl

theorem scalar?_int {i : Int} (hi : inWord i = some (.int i)) (rest : List Char) :
    scalar? (Json.writeInt i ++ '\n' :: rest) = some (.int i, '\n' :: rest) := by
  have hread := @number?_writeInt i rest hi
  obtain ⟨c, t, ht, hc⟩ := Json.writeInt_head i
  have hdouble : c ≠ '"' := hc.ne (by decide)
  have hsingle : c ≠ '\'' := hc.ne (by decide)
  rw [ht, List.cons_append] at hread ⊢
  rw [scalar?, if_neg (by simp [hdouble, hsingle]), if_neg (hc.ne (by decide)), if_neg (hc.ne (by decide)), hread]

theorem scalar?_bool (b : Bool) (rest : List Char) :
    scalar? (Json.write (.bool b) ++ '\n' :: rest) = some (.bool b, '\n' :: rest) := by
  cases b <;> rfl

/-- What is written on the right of an equals sign is read back up to the end of its line. -/
theorem value?_write (h : writeValue? j = some text) :
    ∃ v, v.toJson = j ∧
      ∀ fuel depth rest, value? (fuel + 1) depth (text ++ '\n' :: rest) = some (v, '\n' :: rest) := by
  obtain ⟨c, s, hs, hc⟩ := writeValue?_head h
  have hscalar : ∃ v, v.toJson = j ∧ ∀ rest, scalar? (text ++ '\n' :: rest) = some (v, '\n' :: rest) := by
    cases j with
    | str s =>
      cases h
      exact ⟨.str s, rfl, scalar?_str s⟩
    | int i =>
      obtain ⟨hi, rfl⟩ := writeValue?_int h
      exact ⟨.int i, rfl, scalar?_int hi⟩
    | bool b =>
      cases h
      exact ⟨.bool b, rfl, scalar?_bool b⟩
    | _ => cases h
  obtain ⟨v, hv, hread⟩ := hscalar
  refine ⟨v, hv, ?_⟩
  intro fuel depth rest
  rw [← hread rest, hs]
  exact value?_eq_scalar? hc fuel depth _

end Values

/-! ## (3) Names -/

/-- A name that needs no quotes. -/
def IsBare (name : String) : Prop := name.toList ≠ [] ∧ name.toList.all isBareKeyChar = true

instance (name : String) : Decidable (IsBare name) := inferInstanceAs (Decidable (_ ∧ _))

theorem skipSpace_cons {c : Char} (hc : isSpace c = false) (s : List Char) : skipSpace (c :: s) = c :: s :=
  List.dropWhile_cons_of_neg (by simp [hc])

/-- A name begins as a name. -/
theorem IsBare.head {name : String} (h : IsBare name) : ∃ c s, name.toList = c :: s ∧ isBareKeyChar c = true := by
  obtain ⟨c, s, hs⟩ := List.exists_cons_of_ne_nil h.1
  exact ⟨c, s, hs, List.all_eq_true.mp h.2 c (by rw [hs]; exact List.mem_cons_self)⟩

theorem simpleKey?_bare {name : String} (hname : IsBare name) {rest : List Char}
    (hrest : ∀ c ∈ rest.head?, isBareKeyChar c = false) :
    simpleKey? (name.toList ++ rest) = some (name, rest) := by
  have hall := List.all_eq_true.mp hname.2
  have htake := takeWhile_front hall hrest
  have hdrop := dropWhile_front hall hrest
  obtain ⟨c, s, hs, hc⟩ := hname.head
  have hdouble : c ≠ '"' := ne_of_test hc (by decide)
  have hsingle : c ≠ '\'' := ne_of_test hc (by decide)
  rw [hs, List.cons_append] at htake hdrop ⊢
  unfold simpleKey?
  split
  · next h => exact absurd (List.cons.inj h).1 hdouble
  · next h => exact absurd (List.cons.inj h).1 hsingle
  · dsimp only
    rw [htake, hdrop, ← hs, String.ofList_toList, hs]
    rfl

/-- A name is read back up to what ends it. -/
theorem key?_bare {name : String} (hname : IsBare name) (fuel : Nat) {rest : List Char}
    (hrest : ∀ c ∈ rest.head?, isBareKeyChar c = false) (hdot : ∀ c ∈ (skipSpace rest).head?, c ≠ '.') :
    key? (fuel + 1) (name.toList ++ rest) = some ([name], skipSpace rest) := by
  have hkey := simpleKey?_bare hname hrest
  have hspace : skipSpace (name.toList ++ rest) = name.toList ++ rest := by
    obtain ⟨c, s, hs, hc⟩ := hname.head
    have hblank : c ≠ ' ' := ne_of_test hc (by decide)
    have htab : c ≠ '\t' := ne_of_test hc (by decide)
    rw [hs]
    exact skipSpace_cons (by simp [isSpace, hblank, htab]) _
  rw [key?, hspace, hkey]
  rw [Option.bind_eq_bind, Option.bind_some]
  dsimp only
  split
  · next h =>
    rw [h] at hdot
    exact absurd rfl (hdot '.' rfl)
  · rfl

end Peripheral.Toml
