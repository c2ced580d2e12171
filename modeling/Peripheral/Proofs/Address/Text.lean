import Peripheral.Address.Text
import Peripheral.Proofs.Text.Blank

/-
  Peripheral.Proofs.Address.Text — the characters of an address text.

  A reader takes away a front of hexadecimal digits, dots and colons (`Reads`), and an address
  is read only where nothing is left but blanks. So a text that holds anything else, such as
  the `*` or the `?` of a pattern, is no address (`isWritten_of_ofText`).
-/

namespace Peripheral.Address

/-- The characters that addresses are written with. -/
def isWritten (x : Char) : Bool := (Text.Numeral.digit? 16 x).isSome || x == '.' || x == ':'

/-- A front of the text was read. -/
def Reads (s rest : List Char) : Prop := ∃ front, s = front ++ rest ∧ ∀ x ∈ front, isWritten x = true

variable {s t rest : List Char}

theorem Reads.refl (s : List Char) : Reads s s := ⟨[], rfl, nofun⟩

theorem Reads.trans (h : Reads s t) (h' : Reads t rest) : Reads s rest := by
  obtain ⟨f, rfl, hf⟩ := h
  obtain ⟨g, rfl, hg⟩ := h'
  refine ⟨f ++ g, (List.append_assoc _ _ _).symm, fun x hx => ?_⟩
  rcases List.mem_append.mp hx with hx | hx
  · exact hf x hx
  · exact hg x hx

theorem Reads.of_cons {x : Char} (hx : isWritten x = true) : Reads (x :: s) s :=
  ⟨[x], rfl, by simpa using hx⟩

/-- What was read to the end. -/
theorem Reads.all (h : Reads s []) : ∀ x ∈ s, isWritten x = true := by
  obtain ⟨f, rfl, hf⟩ := h
  rwa [List.append_nil]

theorem isWritten_of_digit {radix : Nat} {x : Char} (hr : radix ≤ 16)
    (h : (Text.Numeral.digit? radix x).isSome = true) : isWritten x = true := by
  have hd : (Text.Numeral.digit? 16 x).isSome = true := by
    simp only [Text.Numeral.digit?] at h ⊢
    grind
  simp [isWritten, hd]

theorem reads_of_readNumber {radix most n : Nat} {zeroPadded : Bool} (hr : radix ≤ 16)
    (h : readNumber? radix most zeroPadded s = some (n, rest)) : Reads s rest := by
  simp only [readNumber?] at h
  split at h
  · cases h
  split at h
  · cases h
  obtain ⟨m, -, hm⟩ := Option.map_eq_some_iff.mp h
  cases hm
  refine ⟨s.takeWhile fun c => (Text.Numeral.digit? radix c).isSome, List.takeWhile_append_dropWhile.symm,
    fun x hx => isWritten_of_digit hr ?_⟩
  exact List.all_eq_true.mp List.all_takeWhile x hx

theorem reads_of_passSeparator {sep : Char} {first : Bool} (hsep : isWritten sep = true)
    (h : passSeparator? sep first s = some rest) : Reads s rest := by
  unfold passSeparator? at h
  split at h
  · cases h
    exact .refl _
  split at h
  · split at h
    · rename_i hc
      cases h
      exact .of_cons (hc ▸ hsep)
    · cases h
  · cases h

theorem reads_of_readOctets {count : Nat} {first : Bool} {ns : List Nat}
    (h : readOctets? first count s = some (ns, rest)) : Reads s rest := by
  induction count generalizing first s ns with
  | zero =>
    cases h
    exact .refl _
  | succ count ih =>
    simp only [readOctets?, Option.bind_eq_bind, Option.bind_eq_some_iff] at h
    obtain ⟨s₁, hsep, ⟨n, s₂⟩, hn, h⟩ := h
    split at h
    · cases h
    obtain ⟨⟨ns', s₃⟩, hns, h⟩ := Option.bind_eq_some_iff.mp h
    cases h
    exact (reads_of_passSeparator (by decide) hsep).trans ((reads_of_readNumber (by decide) hn).trans (ih hns))

theorem reads_of_readEmbedded {first : Bool} {ns : List Nat} (h : readEmbedded? first s = some (ns, rest)) :
    Reads s rest := by
  simp only [readEmbedded?, Option.bind_eq_bind, Option.bind_eq_some_iff] at h
  obtain ⟨s₁, hsep, ⟨ms, s₂⟩, hms, h⟩ := h
  split at h
  · cases h
    exact (reads_of_passSeparator (by decide) hsep).trans (reads_of_readOctets hms)
  · cases h

theorem reads_of_readGroup {first : Bool} {n : Nat} (h : readGroup? first s = some (n, rest)) : Reads s rest := by
  simp only [readGroup?, Option.bind_eq_bind, Option.bind_eq_some_iff] at h
  obtain ⟨s₁, hsep, hn⟩ := h
  exact (reads_of_passSeparator (by decide) hsep).trans (reads_of_readNumber (by decide) hn)

theorem reads_readGroups (first : Bool) (room : Nat) (s : List Char) : Reads s (readGroups first room s).rest := by
  induction room generalizing first s with
  | zero => exact .refl _
  | succ room ih =>
    unfold readGroups
    split
    · rename_i pair t hpair
      split at hpair
      · exact reads_of_readEmbedded hpair
      · cases hpair
    · split
      · exact .refl _
      · rename_i g t hg
        exact (reads_of_readGroup hg).trans (ih false t)

theorem reads_of_readColons {ns : List Nat} (h : readColons? s = some ns) : Reads s [] := by
  simp only [readColons?] at h
  have hhead := reads_readGroups true 8 s
  split at h
  · split at h
    · rename_i hempty
      rwa [List.isEmpty_iff.mp hempty] at hhead
    · cases h
  split at h
  · cases h
  split at h
  · rename_i t hgap
    split at h
    · rename_i hempty
      have htail := reads_readGroups true (7 - (readGroups true 8 s).groups.length) t
      rw [List.isEmpty_iff.mp hempty] at htail
      rw [hgap] at hhead
      exact hhead.trans ((Reads.of_cons (by decide)).trans ((Reads.of_cons (by decide)).trans htail))
    · cases h
  · cases h

theorem isWritten_of_ofChars {a : Address} (h : ofChars? s = some a) : ∀ x ∈ s, isWritten x = true := by
  unfold ofChars? at h
  split at h
  · obtain ⟨ns, hns, -⟩ := Option.map_eq_some_iff.mp h
    exact (reads_of_readColons hns).all
  split at h
  · split at h
    · rename_i ns hns
      exact (reads_of_readOctets hns).all
    · cases h
  · cases h

/-- An address text holds nothing but hexadecimal digits, dots, colons and blanks around them. -/
theorem isWritten_of_ofText {text : String} {a : Address} (h : ofText? text = some a) {x : Char}
    (hx : x ∈ text.toList) : isWritten x = true ∨ Text.isBlank x = true := by
  cases hb : Text.isBlank x with
  | true => exact .inr rfl
  | false => exact .inl (isWritten_of_ofChars h x (Text.mem_trim hx hb))

/-- A pattern with a `*` or a `?` is no address, and neither is an empty text. -/
theorem ofText_of_pattern {text : String}
    (h : text.isEmpty = true ∨ ∃ x ∈ text.toList, x = '*' ∨ x = '?') : ofText? text = none := by
  rcases h with h | ⟨x, hx, hwild⟩
  · rw [String.isEmpty_iff.mp h]
    decide
  · rw [Option.eq_none_iff_forall_ne_some]
    intro a ha
    have hwritten := isWritten_of_ofText ha hx
    rcases hwild with rfl | rfl <;> exact absurd hwritten (by decide)

end Peripheral.Address
