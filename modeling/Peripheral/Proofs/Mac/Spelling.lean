import Mathlib.Data.List.Forall2
import Peripheral.Proofs.Address.RoundTrip

/-
  Peripheral.Proofs.Mac.Spelling — which texts are read as a hardware address, and as which.

  Cut at its separators, a text has a part for each octet (`separated_iff`). The grammar that
  is meant has one or two hexadecimal digits in a part (`IsGroup`). The number reader behind it
  takes a sign as well, so a plus and one digit pass for two digits (`IsPart`), and there is no
  other difference: what is read without a plus sign is what is meant
  (`signed_digits_pass_for_groups`).
-/

namespace Peripheral.Mac

open Text.Numeral (bounded digit? read?)

variable {s t : List Char} {os : List UInt8} {o : UInt8} {c x : Char} {d e n : Nat} {m : Mac} {text : String}

/-! ## Digits -/

/-- The value of a hexadecimal digit, in either case. -/
def IsHexDigit (c : Char) (d : Nat) : Prop :=
  "0123456789abcdef".toList[d]? = some c ∨ "0123456789ABCDEF".toList[d]? = some c

theorem isHexDigit_iff : IsHexDigit c d ↔ d < 16 ∧ (c = Nat.digitChar d ∨ c = upperDigit d) := by
  have hall : ∀ d < 16, "0123456789abcdef".toList[d]? = some (Nat.digitChar d) ∧
      "0123456789ABCDEF".toList[d]? = some (upperDigit d) := by decide
  unfold IsHexDigit
  by_cases hd : d < 16
  · rw [(hall d hd).1, (hall d hd).2, Option.some_inj, Option.some_inj, eq_comm, @eq_comm _ (upperDigit d)]
    exact (and_iff_right hd).symm
  · simp [hd]

theorem digit?_eq_some_iff : digit? 16 c = some d ↔ IsHexDigit c d := by
  rw [isHexDigit_iff]
  constructor
  · intro h
    have hd := Text.Numeral.lt_of_digit? h
    have hall : ∀ d < 16, (Nat.digitChar d).toNat = (if d < 10 then 48 + d else 87 + d) ∧
        (upperDigit d).toNat = (if d < 10 then 48 + d else 55 + d) := by decide
    refine ⟨hd, ?_⟩
    rw [← Char.toNat_inj, ← Char.toNat_inj, (hall d hd).1, (hall d hd).2]
    simp only [digit?] at h
    grind
  · rintro ⟨hd, rfl | rfl⟩
    · exact Text.Numeral.digit?_digitChar hd (by omega)
    · exact (upperDigit_spec hd).1

/-- A digit is one byte, and neither a sign nor a separator. -/
theorem IsHexDigit.spec (h : IsHexDigit c d) : d < 16 ∧ c.utf8Size = 1 ∧ c ≠ '+' ∧ isSeparator c = false := by
  have hall : ∀ d < 16,
      ((Nat.digitChar d).utf8Size = 1 ∧ Nat.digitChar d ≠ '+' ∧ isSeparator (Nat.digitChar d) = false) := by decide
  obtain ⟨hd, rfl | rfl⟩ := isHexDigit_iff.mp h
  · exact ⟨hd, hall d hd⟩
  · obtain ⟨-, hsize, hplus, hsep, -⟩ := upperDigit_spec hd
    exact ⟨hd, hsize, hplus, hsep⟩

/-! ## Parts -/

/-- One or two hexadecimal digits. -/
inductive IsGroup : List Char → UInt8 → Prop
  | one {c : Char} {o : UInt8} (hc : IsHexDigit c o.toNat) : IsGroup [c] o
  | two {c x : Char} {d e : Nat} {o : UInt8} (hc : IsHexDigit c d) (hx : IsHexDigit x e) (ho : o.toNat = 16 * d + e) :
      IsGroup [c, x] o

/-- What is read as an octet. -/
inductive IsPart : List Char → UInt8 → Prop
  | group {s : List Char} {o : UInt8} (h : IsGroup s o) : IsPart s o
  | signed {c : Char} {o : UInt8} (hc : IsHexDigit c o.toNat) : IsPart ['+', c] o

theorem toOption_bounded_one (c : Char) : (bounded 16 256 [c] 0).toOption = digit? 16 c := by
  cases hd : digit? 16 c with
  | none => simp [bounded, hd, Except.toOption]
  | some d =>
    have hlimit : d < 16 := Text.Numeral.lt_of_digit? hd
    simp [bounded, hd, show d < 256 by omega, Except.toOption]

theorem toOption_bounded_two (c x : Char) :
    (bounded 16 256 [c, x] 0).toOption = (digit? 16 c).bind fun d => (digit? 16 x).map fun e => 16 * d + e := by
  cases hd : digit? 16 c with
  | none => simp [bounded, hd, Except.toOption]
  | some d =>
    have hlimit : d < 16 := Text.Numeral.lt_of_digit? hd
    cases he : digit? 16 x with
    | none => simp [bounded, hd, he, show d < 256 by omega, Except.toOption]
    | some e =>
      have hlimit' : e < 16 := Text.Numeral.lt_of_digit? he
      simp [bounded, hd, he, show d < 256 by omega, show d * 16 + e < 256 by omega, Except.toOption, Nat.mul_comm]

theorem read?_unsigned (hc : c ≠ '+') (s : List Char) :
    read? 16 256 (c :: s) = (bounded 16 256 (c :: s) 0).toOption := by
  simp [read?, Text.Numeral.parse, hc]

theorem read?_signed (c : Char) (s : List Char) :
    read? 16 256 ('+' :: c :: s) = (bounded 16 256 (c :: s) 0).toOption := rfl

theorem length_le_byteLength (s : List Char) : s.length ≤ byteLength s := by
  induction s with
  | nil => exact Nat.le_refl 0
  | cons c s ih =>
    have hc : 0 < c.utf8Size := c.utf8Size_pos
    have hcons : byteLength (c :: s) = c.utf8Size + byteLength s := rfl
    rw [List.length_cons, hcons]
    omega

theorem readPart?_eq_read? (hne : s ≠ []) (hlength : byteLength s ≤ 2) : readPart? s = read? 16 256 s := by
  simp [readPart?, hne, Nat.not_lt.mpr hlength]

theorem readPart?_of_isPart (h : IsPart s o) : readPart? s = some o.toNat := by
  cases h with
  | group h =>
    cases h with
    | one hc =>
      obtain ⟨-, hsize, hplus, -⟩ := hc.spec
      rw [readPart?_eq_read? (List.cons_ne_nil _ _) (by simp [byteLength, hsize]), read?_unsigned hplus,
        toOption_bounded_one, digit?_eq_some_iff.mpr hc]
    | two hc hx ho =>
      obtain ⟨-, hsize, hplus, -⟩ := hc.spec
      obtain ⟨-, hsize', -, -⟩ := hx.spec
      rw [readPart?_eq_read? (List.cons_ne_nil _ _) (by simp [byteLength, hsize, hsize']), read?_unsigned hplus,
        toOption_bounded_two, digit?_eq_some_iff.mpr hc, digit?_eq_some_iff.mpr hx, ho]
      rfl
  | @signed c o hc =>
    obtain ⟨-, hsize, -, -⟩ := hc.spec
    have hplus : '+'.utf8Size = 1 := by decide
    rw [readPart?_eq_read? (List.cons_ne_nil _ _) (by simp [byteLength, hplus, hsize]), read?_signed,
      toOption_bounded_one, digit?_eq_some_iff.mpr hc]

theorem isPart_of_readPart? (h : readPart? s = some n) : n < 256 ∧ IsPart s (UInt8.ofNat n) := by
  unfold readPart? at h
  split at h
  · cases h
  rename_i hsize
  simp only [Bool.or_eq_true, List.isEmpty_iff, decide_eq_true_eq, not_or, not_lt] at hsize
  obtain ⟨hne, hsize⟩ := hsize
  have hlength := length_le_byteLength s
  have hone : ∀ c, digit? 16 c = some n → n < 256 ∧ IsHexDigit c (UInt8.ofNat n).toNat := by
    intro c hc
    have hlimit : n < 16 := Text.Numeral.lt_of_digit? hc
    rw [UInt8.toNat_ofNat_of_lt' (show n < 256 by omega)]
    exact ⟨by omega, digit?_eq_some_iff.mp hc⟩
  match s with
  | [] => exact absurd rfl hne
  | [c] =>
    by_cases hc : c = '+'
    · subst hc
      cases h
    · rw [read?_unsigned hc, toOption_bounded_one] at h
      exact ⟨(hone c h).1, .group (.one (hone c h).2)⟩
  | [c, x] =>
    by_cases hc : c = '+'
    · subst hc
      rw [read?_signed, toOption_bounded_one] at h
      exact ⟨(hone x h).1, .signed (hone x h).2⟩
    · rw [read?_unsigned hc, toOption_bounded_two] at h
      obtain ⟨d, hd, h⟩ := Option.bind_eq_some_iff.mp h
      obtain ⟨e, he, rfl⟩ := Option.map_eq_some_iff.mp h
      have hlimit : d < 16 := Text.Numeral.lt_of_digit? hd
      have hlimit' : e < 16 := Text.Numeral.lt_of_digit? he
      have hvalue : (UInt8.ofNat (16 * d + e)).toNat = 16 * d + e :=
        UInt8.toNat_ofNat_of_lt' (show 16 * d + e < 256 by omega)
      exact ⟨by omega, .group (.two (digit?_eq_some_iff.mp hd) (digit?_eq_some_iff.mp he) hvalue)⟩
  | _ :: _ :: _ :: s =>
    simp only [List.length_cons] at hlength
    omega

/-! ## Whole texts -/

/-- Parts with a colon or a dash between them, each written as `P` says. -/
inductive Separated (P : List Char → UInt8 → Prop) : List Char → List UInt8 → Prop
  | one {s : List Char} {o : UInt8} (h : P s o) : Separated P s [o]
  | more {s t : List Char} {o : UInt8} {os : List UInt8} {sep : Char} (h : P s o) (hsep : sep = ':' ∨ sep = '-')
      (ht : Separated P t os) : Separated P (s ++ sep :: t) (o :: os)

section Separated

variable {P Q : List Char → UInt8 → Prop}

theorem isSeparator_iff : isSeparator c = true ↔ c = ':' ∨ c = '-' := by simp [isSeparator]

theorem Separated.mono (hPQ : ∀ s o, P s o → Q s o) (h : Separated P s os) : Separated Q s os := by
  induction h with
  | one h => exact .one (hPQ _ _ h)
  | more h hsep ht ih => exact .more (hPQ _ _ h) hsep ih

theorem Separated.forall_splitOnP (hP : ∀ s o, P s o → ∀ c ∈ s, isSeparator c = false) (h : Separated P s os) :
    List.Forall₂ P (s.splitOnP isSeparator) os := by
  induction h with
  | one h =>
    rw [List.splitOnP_eq_singleton (hP _ _ h)]
    exact .cons h .nil
  | more h hsep ht ih =>
    rw [List.splitOnP_append_cons_of_forall_mem (hP _ _ h) _ (isSeparator_iff.mpr hsep)]
    exact .cons h ih

/-- The first separator of a text, if it has one. -/
theorem exists_separator (s : List Char) : (∀ c ∈ s, isSeparator c = false) ∨
    ∃ l sep t, s = l ++ sep :: t ∧ isSeparator sep = true ∧ ∀ c ∈ l, isSeparator c = false := by
  cases hfind : s.find? isSeparator with
  | none => exact .inl fun c hc => Bool.eq_false_iff.mpr (List.find?_eq_none.mp hfind c hc)
  | some sep =>
    obtain ⟨hsep, l, t, hs, hl⟩ := List.find?_eq_some_iff_append.mp hfind
    exact .inr ⟨l, sep, t, hs, hsep, fun c hc => by simpa using hl c hc⟩

theorem separated_of_forall_splitOnP (h : List.Forall₂ P (s.splitOnP isSeparator) os) : Separated P s os := by
  induction os generalizing s with
  | nil => exact absurd (List.forall₂_nil_right_iff.mp h) (List.splitOnP_ne_nil _ s)
  | cons o os ih =>
    rcases exists_separator s with hs | ⟨l, sep, t, rfl, hsep, hl⟩
    · rw [List.splitOnP_eq_singleton hs, List.forall₂_cons, List.forall₂_nil_left_iff] at h
      obtain ⟨h, rfl⟩ := h
      exact .one h
    · rw [List.splitOnP_append_cons_of_forall_mem hl _ hsep, List.forall₂_cons] at h
      exact .more h.1 (isSeparator_iff.mp hsep) (ih h.2)

/-- The parts of a text are what its separators cut it into. -/
theorem separated_iff (hP : ∀ s o, P s o → ∀ c ∈ s, isSeparator c = false) :
    Separated P s os ↔ List.Forall₂ P (s.splitOnP isSeparator) os :=
  ⟨Separated.forall_splitOnP hP, separated_of_forall_splitOnP⟩

end Separated

theorem IsPart.not_isSeparator (h : IsPart s o) : ∀ c ∈ s, isSeparator c = false := by
  cases h with
  | group h =>
    cases h with
    | one hc => simp [hc.spec.2.2.2]
    | two hc hx => simp [hc.spec.2.2.2, hx.spec.2.2.2]
  | signed hc =>
    have hplus : isSeparator '+' = false := by decide
    simp [hplus, hc.spec.2.2.2]

theorem mapM_readPart?_eq_some_iff {parts : List (List Char)} {ns : List Nat} :
    parts.mapM readPart? = some ns ↔ ∃ os : List UInt8, os.map UInt8.toNat = ns ∧ List.Forall₂ IsPart parts os := by
  constructor
  · intro h
    induction parts generalizing ns with
    | nil =>
      cases h
      exact ⟨[], rfl, .nil⟩
    | cons s parts ih =>
      simp only [List.mapM_cons, Option.bind_eq_bind, Option.bind_eq_some_iff, Option.pure_def, Option.some_inj] at h
      obtain ⟨n, hn, ms, hms, rfl⟩ := h
      obtain ⟨hlimit, hpart⟩ := isPart_of_readPart? hn
      obtain ⟨os, rfl, hparts⟩ := ih hms
      exact ⟨UInt8.ofNat n :: os, by rw [List.map_cons, UInt8.toNat_ofNat_of_lt' hlimit], .cons hpart hparts⟩
  · rintro ⟨os, rfl, h⟩
    induction h with
    | nil => rfl
    | cons hpart h ih => simp [readPart?_of_isPart hpart, ih]

theorem octets_ofNats (h : os.length = 6) : (ofNats (os.map UInt8.toNat)).octets.toList = os := by
  refine List.ext_getElem (by simp [h]) fun i hi hi' => ?_
  simp [ofNats, List.getD_eq_getElem?_getD, hi']

/-- A text is read as the octets of its parts. -/
theorem ofText?_eq_some_iff :
    ofText? text = some m ↔ Separated IsPart (Text.trim text.toList) m.octets.toList := by
  rw [separated_iff fun s o h => h.not_isSeparator, ofText?]
  constructor
  · intro h
    split at h
    · rename_i hlength
      obtain ⟨ns, hns, rfl⟩ := Option.map_eq_some_iff.mp h
      obtain ⟨os, rfl, hparts⟩ := mapM_readPart?_eq_some_iff.mp hns
      rwa [octets_ofNats (hparts.length_eq.symm.trans hlength)]
    · cases h
  · intro h
    have hlength : ((Text.trim text.toList).splitOnP isSeparator).length = 6 := by simpa using h.length_eq
    rw [if_pos hlength, mapM_readPart?_eq_some_iff.mpr ⟨_, rfl, h⟩, Option.map_some, ofNats_octets]

theorem parse_eq_ok_iff : parse text = .ok m ↔ ofText? text = some m := by
  unfold parse
  cases ofText? text <;> simp

theorem parse_eq_error_iff {e : AddressError} :
    parse text = .error e ↔ e = .invalidFormat text ∧ ∀ m, parse text ≠ .ok m := by
  unfold parse
  cases ofText? text <;> simp [eq_comm]

/-! ## The meant grammar -/

/-- Groups of one or two hexadecimal digits, one for each octet. -/
def Spells (s : List Char) (m : Mac) : Prop := Separated IsGroup s m.octets.toList

theorem IsHexDigit.not_isBlank (h : IsHexDigit c d) : Text.isBlank c = false := by
  have hdigit : (digit? 16 c).isSome = true := by rw [digit?_eq_some_iff.mpr h]; rfl
  exact Address.not_isBlank_of_isWritten (Address.isWritten_of_digit (Nat.le_refl 16) hdigit)

theorem IsGroup.not_isBlank (h : IsGroup s o) : ∀ x ∈ s, Text.isBlank x = false := by
  cases h with
  | one hc => simpa using hc.not_isBlank
  | two hc hx => simpa using ⟨hc.not_isBlank, hx.not_isBlank⟩

theorem Separated.not_isBlank (h : Separated IsGroup s os) : ∀ x ∈ s, Text.isBlank x = false := by
  induction h with
  | one h => exact h.not_isBlank
  | more h hsep ht ih =>
    intro x hx
    rcases List.mem_append.mp hx with hx | hx
    · exact h.not_isBlank x hx
    rcases List.mem_cons.mp hx with rfl | hx
    · rcases hsep with rfl | rfl <;> decide
    · exact ih x hx

theorem Spells.trim (h : Spells s m) : Text.trim s = s := Text.trim_eq_self h.not_isBlank

/-- What spells a hardware address is read as it. -/
theorem Spells.ofText? (h : Spells s m) (htrim : Text.trim text.toList = s) : Mac.ofText? text = some m := by
  rw [ofText?_eq_some_iff, htrim]
  exact h.mono fun _ _ => .group

/-! ## Signs -/

theorem IsGroup.plus_notMem (h : IsGroup s o) : '+' ∉ s := by
  cases h with
  | one hc => simpa using hc.spec.2.2.1.symm
  | two hc hx => simpa using ⟨hc.spec.2.2.1.symm, hx.spec.2.2.1.symm⟩

/-- The signed digits are all that the meant grammar does not have. -/
theorem separated_isGroup_iff : Separated IsGroup s os ↔ Separated IsPart s os ∧ '+' ∉ s := by
  constructor
  · intro h
    refine ⟨h.mono fun _ _ => .group, ?_⟩
    induction h with
    | one h => exact h.plus_notMem
    | @more s t o os sep h hsep ht ih =>
      have hplus : '+' ≠ sep := by
        rintro rfl
        exact absurd hsep (by decide)
      simp [h.plus_notMem, ih, hplus]
  · rintro ⟨h, hplus⟩
    induction h with
    | one h =>
      cases h with
      | group h => exact .one h
      | signed hc => simp at hplus
    | more h hsep ht ih =>
      simp only [List.mem_append, List.mem_cons, not_or] at hplus
      cases h with
      | group h => exact .more h hsep (ih hplus.2.2)
      | signed hc => simp at hplus

/-- What is read without a plus sign is what is meant. -/
theorem spells_trim_iff : Spells (Text.trim text.toList) m ↔ ofText? text = some m ∧ '+' ∉ text.toList := by
  rw [Spells, separated_isGroup_iff, ofText?_eq_some_iff, Text.mem_trim_iff (by decide)]

/-- Every text that is read is six parts between colons and dashes, with an octet for each; any
    other is refused and quoted. A part is one or two hexadecimal digits, or a plus sign and one:
    without a plus sign exactly the meant texts are read. -/
theorem signed_digits_pass_for_groups (text : String) :
    (∀ m, parse text = .ok m ↔ Separated IsPart (Text.trim text.toList) m.octets.toList) ∧
      (∀ m, parse text = .ok m ∧ '+' ∉ text.toList ↔ Spells (Text.trim text.toList) m) ∧
      ∀ e, parse text = .error e ↔
        e = .invalidFormat text ∧ ∀ m : Mac, ¬ Separated IsPart (Text.trim text.toList) m.octets.toList := by
  have hread : ∀ m, parse text = .ok m ↔ Separated IsPart (Text.trim text.toList) m.octets.toList :=
    fun m => parse_eq_ok_iff.trans ofText?_eq_some_iff
  refine ⟨hread, fun m => ?_, fun e => ?_⟩
  · rw [spells_trim_iff, parse_eq_ok_iff]
  · rw [parse_eq_error_iff]
    simp only [ne_eq, hread]

/-- A plus sign and a digit are no group. -/
theorem signed_digit_is_read :
    parse "+0:1b:44:11:3a:b7" = .ok (ofNats [0x00, 0x1b, 0x44, 0x11, 0x3a, 0xb7]) ∧
      ∀ m, ¬ Spells (Text.trim "+0:1b:44:11:3a:b7".toList) m := by
  refine ⟨by decide, fun m h => ?_⟩
  exact absurd (separated_isGroup_iff.mp h).2 (by decide)

end Peripheral.Mac
