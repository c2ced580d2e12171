import Peripheral.Json.Reader
import Peripheral.Proofs.Text.Numeral

/-
  Peripheral.Proofs.Json.Reader — reading back what was written.

  The compact text of a value is read back as that value (`ofText?_text`), if the value is
  plain: whole numbers only, none of them beyond the doubles, and arrays and objects nested no
  deeper than the limit. A value ends where a comma or a closing bracket follows (`Ends`), so
  what was written in front of it is read off and the rest is left (`readValue_write`).
-/

namespace Peripheral.Json

open Text.Numeral (write_ne_nil digits?_write)

/-! ## Strings -/

theorem unit?_append {s : List Char} (hs : s.length = 4) (t : List Char) :
    unit? (s ++ t) = (Text.Numeral.digits? 16 s 0).map (·, t) := by
  match s, hs with
  | [_, _, _, _], _ => rfl

/-- Four digits are enough for the characters below the space. -/
theorem unit?_padded {n : Nat} (hn : n < 32) (s : List Char) :
    unit? (Text.Numeral.padded 16 4 n ++ s) = some (n, s) := by
  have hall : ∀ n < 32, (Text.Numeral.padded 16 4 n).length = 4 ∧
      Text.Numeral.digits? 16 (Text.Numeral.padded 16 4 n) 0 = some n := by decide
  rw [unit?_append (hall n hn).1, (hall n hn).2]
  rfl

theorem readUnits_plain {c : Char} (hquote : c ≠ '"') (hbackslash : c ≠ '\\') (hlow : ¬ c.toNat < 32) (fuel : Nat)
    (s : List Char) :
    readUnits (fuel + 1) (c :: s) = (readUnits fuel s).map fun (ns, s) => (c.toNat :: ns, s) := by
  cases hs : readUnits fuel s <;> simp [readUnits, hquote, hbackslash, hlow, hs]

/-- Every character is read back from its escape. -/
theorem readUnits_escape (c : Char) (fuel : Nat) (s : List Char) :
    readUnits (fuel + 1) (escape c ++ s) = (readUnits fuel s).map fun (ns, s) => (c.toNat :: ns, s) := by
  unfold escape
  split
  case h_8 hquote hbackslash _ _ _ _ _ =>
    split
    case isTrue hlow =>
      cases hs : readUnits fuel s <;> simp [readUnits, unit?_padded hlow, hs]
    case isFalse hlow =>
      exact readUnits_plain hquote hbackslash hlow fuel s
  -- a letter after the backslash
  all_goals
    cases hs : readUnits fuel s <;> simp [readUnits, unescape?, hs]

theorem one_le_length_escape (c : Char) : 1 ≤ (escape c).length := by
  unfold escape
  split
  case h_8 => split <;> simp
  all_goals decide

theorem length_le_length_escapes (cs : List Char) : cs.length ≤ (cs.flatMap escape).length := by
  induction cs with
  | nil => exact Nat.le_refl 0
  | cons c cs ih =>
    have hc := one_le_length_escape c
    rw [List.flatMap_cons, List.length_append, List.length_cons]
    omega

theorem readUnits_text (cs : List Char) {fuel : Nat} (hfuel : cs.length < fuel) (rest : List Char) :
    readUnits fuel (cs.flatMap escape ++ '"' :: rest) = some (cs.map Char.toNat, rest) := by
  induction cs generalizing fuel with
  | nil =>
    obtain ⟨fuel, rfl⟩ : ∃ k, fuel = k + 1 := ⟨fuel - 1, by simp at hfuel; omega⟩
    rfl
  | cons c cs ih =>
    obtain ⟨fuel, rfl⟩ : ∃ k, fuel = k + 1 := ⟨fuel - 1, by simp at hfuel; omega⟩
    rw [List.flatMap_cons, List.append_assoc, readUnits_escape, ih (by simpa using hfuel)]
    rfl

/-- No character is a surrogate. -/
theorem joinSurrogates_toNat (cs : List Char) : joinSurrogates (cs.map Char.toNat) = some cs := by
  have hplain : ∀ c : Char, isHighSurrogate c.toNat = false ∧ isLowSurrogate c.toNat = false := by
    intro c
    have hvalid : c.toNat < 0xD800 ∨ 0xDFFF < c.toNat ∧ c.toNat < 0x110000 := c.valid
    simp only [isHighSurrogate, isLowSurrogate, Bool.and_eq_false_iff, decide_eq_false_iff_not]
    omega
  induction cs with
  | nil => rfl
  | cons c cs ih =>
    obtain ⟨hhigh, hlow⟩ := hplain c
    cases cs with
    | nil => simp [joinSurrogates, hhigh, hlow]
    | cons d cs =>
      rw [List.map_cons] at ih
      simp [joinSurrogates, hhigh, hlow, ih]

theorem readText_escapes (s : String) (rest : List Char) :
    readText (s.toList.flatMap escape ++ '"' :: rest) = some (some s, rest) := by
  have hlength := length_le_length_escapes s.toList
  rw [readText, readUnits_text]
  · simp [joinSurrogates_toNat]
  · simp only [List.length_append, List.length_cons]
    omega

/-! ## Numbers -/

/-- A value ends in front of this. -/
def Ends (rest : List Char) : Prop := ∀ c ∈ rest.head?, c ∈ [',', ']', '\x7d']

variable {rest : List Char}

theorem Ends.head?_ne (h : Ends rest) {p : Char → Bool} (hp : p ',' = false ∧ p ']' = false ∧ p '\x7d' = false) :
    ∀ c ∈ rest.head?, p c = false := by
  intro c hc
  have hmem := h c hc
  simp only [List.mem_cons, List.not_mem_nil, or_false] at hmem
  rcases hmem with rfl | rfl | rfl
  · exact hp.1
  · exact hp.2.1
  · exact hp.2.2

theorem isDigit_of_mem_write {n : Nat} {c : Char} (hc : c ∈ Text.Numeral.write 10 n) : isDigit c = true := by
  have h := Nat.isDigit_of_mem_toDigits (by omega) (by omega) hc
  simpa [isDigit, Char.isDigit, Char.le_def] using h

theorem readWhole_write (n : Nat) (hrest : Ends rest) :
    readWhole (Text.Numeral.write 10 n ++ rest) = some (Text.Numeral.write 10 n, rest) := by
  have hdigits : ∀ c ∈ Text.Numeral.write 10 n, isDigit c = true := fun c => isDigit_of_mem_write
  have hend : ∀ c ∈ rest.head?, isDigit c = false := hrest.head?_ne (by decide)
  rw [readWhole, Text.Numeral.takeWhile_front hdigits hend, Text.Numeral.dropWhile_front hdigits hend]
  rw [if_neg]
  simp only [Bool.or_eq_true, Bool.and_eq_true, List.isEmpty_iff, write_ne_nil, false_or, not_and, beq_iff_eq,
    decide_eq_true_eq]
  intro hzero
  have hlength := Text.Numeral.length_write_of_head? (by omega) (by omega) hzero
  omega

theorem readFraction_ends (hrest : Ends rest) : readFraction rest = some ([], rest) := by
  unfold readFraction
  split
  · have hmem := hrest '.' rfl
    simp at hmem
  · rfl

theorem readExponent_ends (hrest : Ends rest) : readExponent rest = some (none, rest) := by
  unfold readExponent
  split
  · rename_i c s
    have hc := hrest c rfl
    rw [if_neg]
    rintro (rfl | rfl) <;> simp at hc
  · rfl

theorem not_isBeyond {n : Nat} (hn : n < 10 ^ 200) : isBeyond n 0 = false := by
  have hlength : (Text.Numeral.write 10 n).length ≤ 200 :=
    (Text.Numeral.length_write_le_iff (by omega) (by omega)).mpr hn
  unfold isBeyond
  split
  · rfl
  · rw [if_neg (by omega), if_pos (by omega)]

theorem readNumber_write {n : Nat} (hn : n < 10 ^ 200) (hrest : Ends rest) :
    readNumber (Text.Numeral.write 10 n ++ rest) = some (int n, rest) := by
  have hunsigned : ∀ s, Text.Numeral.write 10 n ++ rest ≠ '-' :: s := by
    intro s hs
    obtain ⟨c, cs, hcs⟩ := List.exists_cons_of_ne_nil (@write_ne_nil 10 n)
    rw [hcs, List.cons_append, List.cons.injEq] at hs
    have hdigit := @isDigit_of_mem_write n '-' (by simp [hcs, hs.1])
    exact absurd hdigit (by decide)
  have hdigits := digits?_write (by omega : 1 < 10) (by omega) n
  unfold readNumber
  split
  rename_i negative s hsign
  split at hsign
  · exact absurd ‹_› (hunsigned _)
  · cases hsign
    simp [readWhole_write n hrest, readFraction_ends hrest, readExponent_ends hrest, hdigits, not_isBeyond hn]

theorem readNumber_write_neg {n : Nat} (hn : n + 1 < 10 ^ 200) (hrest : Ends rest) :
    readNumber ('-' :: (Text.Numeral.write 10 (n + 1) ++ rest)) = some (int (.negSucc n), rest) := by
  have hdigits := digits?_write (by omega : 1 < 10) (by omega) (n + 1)
  simp [readNumber, readWhole_write (n + 1) hrest, readFraction_ends hrest, readExponent_ends hrest, hdigits,
    not_isBeyond hn, Int.negSucc_eq]

theorem readNumber_writeInt {n : Int} (hn : n.natAbs < 10 ^ 200) (hrest : Ends rest) :
    readNumber (writeInt n ++ rest) = some (int n, rest) := by
  cases n with
  | ofNat n => exact readNumber_write hn hrest
  | negSucc n => exact readNumber_write_neg hn hrest

/-! ## Values -/

mutual

/-- Only whole numbers, none beyond the doubles, nothing unreadable, and nothing nested too deep inside `depth`
    containers. -/
def IsPlain (depth : Nat) : Json → Prop
  | int n => n.natAbs < 10 ^ 200
  | decimal _ => False
  | unreadable => False
  | arr items => depth < depthLimit ∧ ItemsPlain (depth + 1) items
  | obj members => depth < depthLimit ∧ MembersPlain (depth + 1) members
  | _ => True

def ItemsPlain (depth : Nat) : List Json → Prop
  | [] => True
  | j :: rest => IsPlain depth j ∧ ItemsPlain depth rest

def MembersPlain (depth : Nat) : List (String × Json) → Prop
  | [] => True
  | (_, j) :: rest => IsPlain depth j ∧ MembersPlain depth rest

end

variable {depth fuel : Nat}

theorem expectWord?_append (word : String) (j : Json) (rest : List Char) :
    expectWord? word j (word.toList ++ rest) = some (j, rest) := by
  have hprefix : word.toList.isPrefixOf (word.toList ++ rest) = true :=
    List.isPrefixOf_iff_prefix.mpr (List.prefix_append _ _)
  rw [expectWord?, if_pos hprefix, ← String.length_toList, List.drop_left]

/-- What a number begins with. -/
def IsNumberStart (c : Char) : Prop := isDigit c = true ∨ c = '-'

theorem IsNumberStart.ne {c d : Char} (hc : IsNumberStart c) (hd : isDigit d = false ∧ d ≠ '-') : c ≠ d := by
  rintro rfl
  rcases hc with hc | hc
  · rw [hd.1] at hc
    cases hc
  · exact hd.2 hc

theorem IsNumberStart.not_isSpace {c : Char} (hc : IsNumberStart c) : isSpace c = false := by
  have hne : c ≠ ' ' ∧ c ≠ '\n' ∧ c ≠ '\t' ∧ c ≠ '\r' :=
    ⟨hc.ne (by decide), hc.ne (by decide), hc.ne (by decide), hc.ne (by decide)⟩
  simp [isSpace, hne]

theorem writeInt_head (n : Int) : ∃ c s, writeInt n = c :: s ∧ IsNumberStart c := by
  cases n with
  | ofNat n =>
    obtain ⟨c, s, hs⟩ := List.exists_cons_of_ne_nil (@write_ne_nil 10 n)
    exact ⟨c, s, hs, .inl (@isDigit_of_mem_write n c (by simp [hs]))⟩
  | negSucc n => exact ⟨_, _, rfl, .inr rfl⟩

theorem skipSpace_cons {c : Char} (hc : isSpace c = false) (s : List Char) : skipSpace (c :: s) = c :: s :=
  List.dropWhile_cons_of_neg (by simp [hc])

theorem readValue_number {c : Char} (hc : IsNumberStart c) (s : List Char) :
    readValue (fuel + 1) depth (c :: s) = readNumber (c :: s) := by
  rw [readValue, skipSpace_cons hc.not_isSpace]
  have hne : c ≠ 'n' ∧ c ≠ 't' ∧ c ≠ 'f' ∧ c ≠ '"' ∧ c ≠ '[' ∧ c ≠ '\x7b' :=
    ⟨hc.ne (by decide), hc.ne (by decide), hc.ne (by decide), hc.ne (by decide), hc.ne (by decide), hc.ne (by decide)⟩
  simp [hne]

/-- A value begins neither with a blank nor with the end of an array. -/
theorem write_head {j : Json} (hj : IsPlain depth j) : ∃ c s, write j = c :: s ∧ isSpace c = false ∧ c ≠ ']' := by
  cases j with
  | null => exact ⟨_, _, rfl, by decide, by decide⟩
  | bool b => cases b <;> exact ⟨_, _, rfl, by decide, by decide⟩
  | int n =>
    obtain ⟨c, s, hs, hc⟩ := writeInt_head n
    exact ⟨c, s, hs, hc.not_isSpace, hc.ne (by decide)⟩
  | decimal text => exact hj.elim
  | str s => exact ⟨_, _, rfl, by decide, by decide⟩
  | arr items => exact ⟨_, _, rfl, by decide, by decide⟩
  | obj members => exact ⟨_, _, rfl, by decide, by decide⟩
  | unreadable => exact hj.elim

theorem writeItems_head {j : Json} (items : List Json) (hj : IsPlain depth j) :
    ∃ c s, writeItems (j :: items) = c :: s ∧ isSpace c = false ∧ c ≠ ']' := by
  obtain ⟨c, s, hs, hc⟩ := write_head hj
  cases items with
  | nil => exact ⟨c, s, hs, hc⟩
  | cons k items => exact ⟨c, _, congrArg (· ++ ',' :: writeItems (k :: items)) hs, hc⟩

theorem writeMembers_head (name : String) (j : Json) (members : List (String × Json)) :
    ∃ s, writeMembers ((name, j) :: members) = '"' :: s := by
  cases members <;> exact ⟨_, rfl⟩

theorem ends_comma (s : List Char) : Ends (',' :: s) := by simp [Ends]

theorem ends_bracket (s : List Char) : Ends (']' :: s) := by simp [Ends]

theorem ends_brace (s : List Char) : Ends ('\x7d' :: s) := by simp [Ends]

theorem readValue_items {c : Char} {s rest : List Char} {items : List Json} (hspace : isSpace c = false) (hc : c ≠ ']')
    (hdepth : depth < depthLimit) (hitems : readItems fuel (depth + 1) (c :: s) = some (items, rest)) :
    readValue (fuel + 1) depth ('[' :: c :: s) = some (arr items, rest) := by
  rw [readValue, skipSpace_cons (by decide)]
  simp [skipSpace_cons hspace, hc, hitems, bounded, hdepth]

theorem mapM_named (members : List (String × Json)) :
    (members.map fun (name, j) => (some name, j)).mapM (fun (name, j) => name.map (·, j)) = some members := by
  induction members with
  | nil => rfl
  | cons m members ih => simp [ih]

theorem namedMembers_map (members : List (String × Json)) :
    namedMembers (members.map fun (name, j) => (some name, j)) = obj members := by
  unfold namedMembers
  rw [mapM_named]

theorem readValue_members {s rest : List Char} {members : List (String × Json)} (hdepth : depth < depthLimit)
    (hmembers : readMembers fuel (depth + 1) ('"' :: s) =
      some (members.map fun (name, j) => (some name, j), rest)) :
    readValue (fuel + 1) depth ('\x7b' :: '"' :: s) = some (obj members, rest) := by
  have hopen : readValue (fuel + 1) depth ('\x7b' :: '"' :: s) =
      (readMembers fuel (depth + 1) ('"' :: s)).map fun r => (bounded depth (namedMembers r.1), r.2) := rfl
  rw [hopen, hmembers, Option.map_some, namedMembers_map, bounded, if_pos hdepth]

mutual

/-- A plain value is read off the front of a text. -/
theorem readValue_write (j : Json) {depth fuel : Nat} {rest : List Char} (hj : IsPlain depth j)
    (hfuel : (write j).length ≤ fuel) (hrest : Ends rest) :
    readValue fuel depth (write j ++ rest) = some (j, rest) := by
  obtain ⟨c, s, hs, -⟩ := write_head hj
  obtain ⟨fuel, rfl⟩ : ∃ k, fuel = k + 1 := ⟨fuel - 1, by simp [hs] at hfuel; omega⟩
  cases j with
  | null => exact expectWord?_append "ull" null rest
  | bool b =>
    cases b with
    | true => exact expectWord?_append "rue" (bool true) rest
    | false => exact expectWord?_append "alse" (bool false) rest
  | int n =>
    obtain ⟨c, s, hs, hc⟩ := writeInt_head n
    have hnumber := readNumber_writeInt hj hrest
    rw [write, hs, List.cons_append, readValue_number hc]
    rwa [hs] at hnumber
  | decimal text => exact hj.elim
  | str s =>
    have hread : readValue (fuel + 1) depth ('"' :: (s.toList.flatMap escape ++ '"' :: rest)) =
        (readText (s.toList.flatMap escape ++ '"' :: rest)).map fun (t, s) => (t.elim unreadable str, s) := rfl
    rw [readText_escapes] at hread
    simpa [write, writeString] using hread
  | arr items =>
    obtain ⟨hdepth, hitems⟩ := hj
    cases items with
    | nil =>
      have hempty : readValue (fuel + 1) depth ('[' :: ']' :: rest) = some (bounded depth (arr []), rest) := rfl
      rwa [bounded, if_pos hdepth] at hempty
    | cons j items =>
      obtain ⟨c, s, hs, hspace, hc⟩ := writeItems_head items hitems.1
      have hlength : (writeItems (j :: items)).length < fuel := by
        simp only [write, List.cons_append, List.length_cons, List.length_append, List.length_nil] at hfuel
        omega
      have hread : readItems fuel (depth + 1) (writeItems (j :: items) ++ ']' :: rest) = some (j :: items, rest) :=
        readItems_write j items hitems hlength
      simp only [write, hs, List.cons_append, List.append_assoc, List.nil_append] at hread ⊢
      exact readValue_items hspace hc hdepth hread
  | obj members =>
    obtain ⟨hdepth, hmembers⟩ := hj
    cases members with
    | nil =>
      have hempty : readValue (fuel + 1) depth ('\x7b' :: '\x7d' :: rest) = some (bounded depth (obj []), rest) := rfl
      rwa [bounded, if_pos hdepth] at hempty
    | cons m members =>
      obtain ⟨name, j⟩ := m
      obtain ⟨s, hs⟩ := writeMembers_head name j members
      have hlength : (writeMembers ((name, j) :: members)).length < fuel := by
        simp only [write, List.cons_append, List.length_cons, List.length_append, List.length_nil] at hfuel
        omega
      have hread := @readMembers_write name j members (depth + 1) fuel rest hmembers hlength
      simp only [write, hs, List.cons_append, List.append_assoc, List.nil_append] at hread ⊢
      exact readValue_members hdepth hread
  | unreadable => exact hj.elim
termination_by fuel

/-- Plain values are read up to the end of their array. -/
theorem readItems_write (j : Json) (items : List Json) {depth fuel : Nat} {rest : List Char}
    (hj : ItemsPlain depth (j :: items)) (hfuel : (writeItems (j :: items)).length < fuel) :
    readItems fuel depth (writeItems (j :: items) ++ ']' :: rest) = some (j :: items, rest) := by
  obtain ⟨fuel, rfl⟩ : ∃ k, fuel = k + 1 := ⟨fuel - 1, by omega⟩
  cases items with
  | nil =>
    have hread : readValue fuel depth (write j ++ ']' :: rest) = some (j, ']' :: rest) :=
      readValue_write j hj.1 (Nat.le_of_lt_succ hfuel) (ends_bracket rest)
    simp [writeItems, readItems, hread, skipSpace_cons, isSpace]
  | cons k items =>
    have hlength : (writeItems (j :: k :: items)).length = (write j).length + (writeItems (k :: items)).length + 1 := by
      simp [writeItems]
      omega
    have hread : readValue fuel depth (write j ++ ',' :: (writeItems (k :: items) ++ ']' :: rest)) =
        some (j, ',' :: (writeItems (k :: items) ++ ']' :: rest)) :=
      readValue_write j hj.1 (by omega) (ends_comma _)
    have hrest : readItems fuel depth (writeItems (k :: items) ++ ']' :: rest) = some (k :: items, rest) :=
      readItems_write k items hj.2 (by omega)
    simp [writeItems, readItems, hread, hrest, skipSpace_cons, isSpace]
termination_by fuel

/-- Plain members are read up to the end of their object. -/
theorem readMembers_write (name : String) (j : Json) (members : List (String × Json)) {depth fuel : Nat}
    {rest : List Char} (hj : MembersPlain depth ((name, j) :: members))
    (hfuel : (writeMembers ((name, j) :: members)).length < fuel) :
    readMembers fuel depth (writeMembers ((name, j) :: members) ++ '\x7d' :: rest) =
      some (((name, j) :: members).map fun (name, j) => (some name, j), rest) := by
  obtain ⟨fuel, rfl⟩ : ∃ k, fuel = k + 1 := ⟨fuel - 1, by omega⟩
  cases members with
  | nil =>
    have hlength : (writeMembers [(name, j)]).length = (writeString name).length + (write j).length + 1 := by
      simp [writeMembers]
      omega
    have hread : readValue fuel depth (write j ++ '\x7d' :: rest) = some (j, '\x7d' :: rest) :=
      readValue_write j hj.1 (by omega) (ends_brace rest)
    simp [writeMembers, writeString, readMembers, expect?, readText_escapes, hread, skipSpace_cons, isSpace]
  | cons m members =>
    obtain ⟨name', k⟩ := m
    have hlength : (writeMembers ((name, j) :: (name', k) :: members)).length =
        (writeString name).length + (write j).length + (writeMembers ((name', k) :: members)).length + 2 := by
      simp [writeMembers]
      omega
    have hread : readValue fuel depth (write j ++ ',' :: (writeMembers ((name', k) :: members) ++ '\x7d' :: rest)) =
        some (j, ',' :: (writeMembers ((name', k) :: members) ++ '\x7d' :: rest)) :=
      readValue_write j hj.1 (by omega) (ends_comma _)
    have hrest : readMembers fuel depth (writeMembers ((name', k) :: members) ++ '\x7d' :: rest) = _ :=
      readMembers_write name' k members hj.2 (by omega)
    simp [writeMembers, writeString, readMembers, expect?, readText_escapes, hread, hrest, skipSpace_cons, isSpace]
termination_by fuel

end

/-- A plain value is what its text says. -/
theorem ofText?_text {j : Json} (hj : IsPlain 0 j) : ofText? j.text = some j := by
  have hread : readValue (2 * (write j).length + 1) 0 (write j ++ []) = some (j, []) :=
    readValue_write j hj (by omega) nofun
  rw [List.append_nil] at hread
  rw [ofText?, text, String.toList_ofList, read?, hread]
  rfl

end Peripheral.Json
