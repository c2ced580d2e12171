import Peripheral.Proofs.Address.Spelling
import Peripheral.Proofs.Mac.Spelling

/-
  Peripheral.Proofs.Address.Canonical — what is written for an address or a hardware address
  is read back, with blanks around it or without.

  An address has one canonical text, and whether there is a colon in a text decides its family
  (`family_eq_v6_iff`). A hardware address has more texts that stand for it: other separators,
  small digits and octets without the zero in front (`Mac.Respells`), each of them six groups of
  hexadecimal digits.
-/

namespace Peripheral

variable {text l r : String} {s : List Char} {os : List UInt8} {o : UInt8} {c : Char} {d : Nat}

theorem toList_trim_padded (hl : ∀ c ∈ l.toList, Text.isBlank c = true) (hr : ∀ c ∈ r.toList, Text.isBlank c = true)
    (s : String) : Text.trim (l ++ s ++ r).toList = Text.trim s.toList := by
  rw [String.toList_append, String.toList_append, Text.trim_padded hl hr]

/-! ## Addresses -/

namespace Address

variable {a : Address}

/-- Only a colon form is an address of the v6 family, and nothing else has a colon. -/
theorem family_eq_v6_iff (h : ofText? text = some a) : a.family = .v6 ↔ ':' ∈ text.toList := by
  rw [← Text.mem_trim_iff (by decide), ← List.contains_iff_mem]
  unfold ofText? ofChars? at h
  split at h
  · rename_i hcolon
    obtain ⟨ns, -, rfl⟩ := Option.map_eq_some_iff.mp h
    exact iff_of_true (family_ofSegments _ _) hcolon
  · rename_i hcolon
    refine iff_of_false ?_ hcolon
    split at h
    · split at h
      · cases h
        rw [family_ofSegments]
        decide
      · cases h
    · cases h

theorem ofText?_padded (hl : ∀ c ∈ l.toList, Text.isBlank c = true) (hr : ∀ c ∈ r.toList, Text.isBlank c = true)
    (text : String) : ofText? (l ++ text ++ r) = ofText? text := by
  rw [ofText?, ofText?, toList_trim_padded hl hr]

end Address

/-! ## Hardware addresses -/

namespace Mac

variable {m : Mac}

/-- The digit itself or the small one. -/
def IsCaseOf (c digit : Char) : Prop := c = digit ∨ c = digit.toLower

instance : DecidableRel IsCaseOf := fun c digit => inferInstanceAs (Decidable (c = digit ∨ c = digit.toLower))

/-- The two digits of an octet in either case, or the second one alone where the first is zero. -/
def RespellsOctet (s : List Char) (o : UInt8) : Prop :=
  List.Forall₂ IsCaseOf s (upperOctet o.toNat) ∨ List.Forall₂ IsCaseOf ('0' :: s) (upperOctet o.toNat)

instance : DecidableRel RespellsOctet := fun s o =>
  inferInstanceAs (Decidable (List.Forall₂ IsCaseOf s (upperOctet o.toNat) ∨
    List.Forall₂ IsCaseOf ('0' :: s) (upperOctet o.toNat)))

/-- A text that differs from the one that is written in separators, in the case of digits and
    in zeros in front of an octet. -/
def Respells (s : List Char) (m : Mac) : Prop := Separated RespellsOctet s m.octets.toList

theorem isHexDigit_of_isCaseOf (hd : d < 16) (h : IsCaseOf c (upperDigit d)) : IsHexDigit c d := by
  have hlower : ∀ d < 16, (upperDigit d).toLower = Nat.digitChar d := by decide
  rw [IsCaseOf, hlower d hd] at h
  exact isHexDigit_iff.mpr ⟨hd, h.symm⟩

theorem RespellsOctet.isGroup (h : RespellsOctet s o) : IsGroup s o := by
  obtain ⟨a, b, ha, hb, ho⟩ := octet_eq o
  rw [RespellsOctet, ho, upperOctet_eq ha hb] at h
  rcases h with h | h
  · simp only [List.forall₂_cons_right_iff, List.forall₂_nil_right_iff] at h
    obtain ⟨c, _, hc, ⟨x, _, hx, rfl, rfl⟩, rfl⟩ := h
    exact .two (isHexDigit_of_isCaseOf ha hc) (isHexDigit_of_isCaseOf hb hx) ho
  · rw [List.forall₂_cons] at h
    obtain ⟨hzero, h⟩ := h
    -- only the digit zero is a case of zero
    obtain rfl : a = 0 := by
      have hall : ∀ a < 16, IsCaseOf '0' (upperDigit a) → a = 0 := by decide
      exact hall a ha hzero
    simp only [List.forall₂_cons_right_iff, List.forall₂_nil_right_iff] at h
    obtain ⟨x, _, hx, rfl, rfl⟩ := h
    rw [Nat.mul_zero, Nat.zero_add] at ho
    exact .one (ho ▸ isHexDigit_of_isCaseOf hb hx)

theorem isCaseOf_self (c : Char) : IsCaseOf c c := .inl rfl

theorem separated_intercalate (hne : os ≠ []) : Separated RespellsOctet ([':'].intercalate (parts os)) os := by
  have hself : ∀ o : UInt8, RespellsOctet (upperOctet o.toNat) o := fun o =>
    .inl (List.forall₂_same.mpr fun c _ => isCaseOf_self c)
  induction os with
  | nil => exact absurd rfl hne
  | cons o os ih =>
    cases os with
    | nil =>
      rw [parts, List.map_singleton, List.intercalate_singleton]
      exact .one (hself o)
    | cons p os =>
      rw [parts, List.map_cons, List.map_cons, List.intercalate_cons_cons, List.append_assoc]
      exact .more (hself o) (.inl rfl) (ih (List.cons_ne_nil p os))

/-- What is written is among the texts that differ so. -/
theorem respells_text (m : Mac) : Respells m.text.toList m := by
  rw [text, String.toList_ofList]
  refine separated_intercalate fun hnil => ?_
  have hlength : m.octets.toList.length = 6 := by simp
  rw [hnil] at hlength
  cases hlength

theorem Respells.spells (h : Respells s m) : Spells s m := h.mono fun _ _ ho => ho.isGroup

end Mac

/-- What is written for an address is read back as it, and so is every respelling of what is
    written for a hardware address, blanks around them or not. Only addresses of the v6 family
    have a colon, and different addresses are written differently. -/
theorem written_addresses_are_read_back {l r : String} (hl : ∀ c ∈ l.toList, Text.isBlank c = true)
    (hr : ∀ c ∈ r.toList, Text.isBlank c = true) :
    (∀ a : Address, Address.parse (l ++ a.text ++ r) = .ok a) ∧
      (∀ text a, Address.parse text = .ok a → (a.family = .v6 ↔ ':' ∈ text.toList)) ∧
      (∀ m : Mac, Mac.parse m.text = .ok m ∧ Mac.Respells m.text.toList m) ∧
      (∀ (m : Mac) (s : String), Mac.Respells s.toList m → Mac.parse (l ++ s ++ r) = .ok m) ∧
      Function.Injective Address.text ∧ Function.Injective Mac.text := by
  refine ⟨fun a => ?_, fun text a h => ?_, fun m => ?_, fun m s h => ?_, Address.text_injective, Mac.text_injective⟩
  · rw [Address.parse_eq_ok_iff, Address.ofText?_padded hl hr, Address.ofText?_text]
  · exact Address.family_eq_v6_iff (Address.parse_eq_ok_iff.mp h)
  · exact ⟨Mac.parse_eq_ok_iff.mpr m.ofText?_text, m.respells_text⟩
  · have htrim : Text.trim (l ++ s ++ r).toList = s.toList := by rw [toList_trim_padded hl hr, h.spells.trim]
    exact Mac.parse_eq_ok_iff.mpr (h.spells.ofText? htrim)

/-- An embedded dotted form and octets that are written in every way. -/
theorem mapped_address_is_read_back :
    (∀ c ∈ "\t ".toList, Text.isBlank c = true) ∧ (∀ c ∈ "\r\n".toList, Text.isBlank c = true) ∧
      Address.parse ("\t " ++ "::ffff:192.168.1.10" ++ "\r\n") =
        .ok (.ofSegments .v6 [0, 0, 0, 0, 0, 0xffff, 0xc0a8, 0x010a]) ∧
      Mac.parse ("\t " ++ "0-1b:4-11:3A-b7" ++ "\r\n") = .ok (.ofNats [0x00, 0x1b, 0x04, 0x11, 0x3a, 0xb7]) := by
  have hl : ∀ c ∈ "\t ".toList, Text.isBlank c = true := List.all_eq_true.mp (by decide)
  have hr : ∀ c ∈ "\r\n".toList, Text.isBlank c = true := List.all_eq_true.mp (by decide)
  have hrespells : Mac.Respells "0-1b:4-11:3A-b7".toList (.ofNats [0x00, 0x1b, 0x04, 0x11, 0x3a, 0xb7]) :=
    .more (by decide : Mac.RespellsOctet ['0'] 0x00) (.inr rfl) <|
    .more (by decide : Mac.RespellsOctet ['1', 'b'] 0x1b) (.inl rfl) <|
    .more (by decide : Mac.RespellsOctet ['4'] 0x04) (.inr rfl) <|
    .more (by decide : Mac.RespellsOctet ['1', '1'] 0x11) (.inl rfl) <|
    .more (by decide : Mac.RespellsOctet ['3', 'A'] 0x3a) (.inr rfl) <|
    .one (by decide : Mac.RespellsOctet ['b', '7'] 0xb7)
  obtain ⟨haddress, -, -, hmac, -, -⟩ := written_addresses_are_read_back hl hr
  exact ⟨hl, hr, haddress (.ofSegments .v6 [0, 0, 0, 0, 0, 0xffff, 0xc0a8, 0x010a]), hmac _ _ hrespells⟩

end Peripheral
