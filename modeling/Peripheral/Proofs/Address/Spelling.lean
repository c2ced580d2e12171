import Peripheral.Proofs.Address.RoundTrip

/-
  Peripheral.Proofs.Address.Spelling — how many texts are read as one address.

  Blanks at the ends never matter (`ofText?_strip`). A dotted form has no other freedom: its
  numbers are decimal and have no leading zeros, so what was read is what would be written,
  number by number (`eq_dotted_of_readDotted?`). A v4 address therefore has one text, its
  canonical one (`ofText?_eq_some_iff_of_v4`). A v6 address has many.
-/

namespace Peripheral.Address

open Text.Numeral (write)

variable {s t rest : List Char} {ns : List Nat} {n count : Nat} {first : Bool} {a : Address} {text : String}

/-! ## Dotted form -/

theorem readNumber?_eq_some {radix most : Nat} {zeroPadded : Bool}
    (h : readNumber? radix most zeroPadded s = some (n, rest)) :
    ∃ ds, s = ds ++ rest ∧ Text.Numeral.unsigned? radix ds = some n ∧
      (zeroPadded = false → ds.head? = some '0' → ds.length = 1) := by
  unfold readNumber? at h
  dsimp only at h
  split at h
  · cases h
  split at h
  · cases h
  · rename_i hzero
    obtain ⟨m, hm, hrest⟩ := Option.map_eq_some_iff.mp h
    cases hrest
    refine ⟨_, List.takeWhile_append_dropWhile.symm, hm, fun hpadded hhead => ?_⟩
    have hpos := List.length_pos_of_mem (List.mem_of_head? hhead)
    simp only [hpadded, hhead, Bool.not_false, beq_self_eq_true, Bool.true_and, decide_eq_true_eq] at hzero
    omega

theorem eq_write_of_readNumber? {most : Nat} (h : readNumber? 10 most false s = some (n, rest)) :
    s = write 10 n ++ rest := by
  obtain ⟨ds, rfl, hds, hzero⟩ := readNumber?_eq_some h
  rw [Text.Numeral.eq_write_of_unsigned? (by omega) (by omega) (hzero rfl) hds]

theorem eq_cons_of_passSeparator? {sep : Char} (h : passSeparator? sep false s = some t) : s = sep :: t := by
  cases s with
  | nil => cases h
  | cons c s =>
    simp only [passSeparator?] at h
    grind

/-- The first of the numbers, and what is left for the others. -/
theorem readOctets?_eq_some (h : readOctets? first (count + 1) s = some (ns, rest)) :
    ∃ n ms t, ns = n :: ms ∧ n < 256 ∧ passSeparator? '.' first s = some (write 10 n ++ t) ∧
      readOctets? false count t = some (ms, rest) := by
  simp only [readOctets?, Option.bind_eq_bind, Option.bind_eq_some_iff] at h
  obtain ⟨t, hsep, ⟨n, u⟩, hn, h⟩ := h
  split at h
  · cases h
  · rename_i hlimit
    obtain ⟨⟨ms, r⟩, hms, h⟩ := Option.bind_eq_some_iff.mp h
    cases h
    exact ⟨n, ms, u, rfl, by omega, eq_write_of_readNumber? hn ▸ hsep, hms⟩

theorem eq_after_of_readOctets? (h : readOctets? false count s = some (ns, rest)) :
    s = after '.' 10 ns ++ rest ∧ ns.length = count ∧ ∀ n ∈ ns, n < 256 := by
  induction count generalizing s ns with
  | zero =>
    cases h
    exact ⟨rfl, rfl, nofun⟩
  | succ count ih =>
    obtain ⟨n, ms, t, rfl, hn, hsep, hms⟩ := readOctets?_eq_some h
    obtain ⟨rfl, hlength, hlimits⟩ := ih hms
    refine ⟨?_, congrArg Nat.succ hlength, List.forall_mem_cons.mpr ⟨hn, hlimits⟩⟩
    rw [eq_cons_of_passSeparator? hsep]
    simp [after]

theorem eq_dotted_of_readDotted? (h : readDotted? s = some (ns, rest)) :
    s = dotted ns ++ rest ∧ ns.length = 4 ∧ ∀ n ∈ ns, n < 256 := by
  obtain ⟨n, ms, t, rfl, hn, hsep, hms⟩ := readOctets?_eq_some h
  obtain ⟨rfl, hlength, hlimits⟩ := eq_after_of_readOctets? hms
  refine ⟨?_, congrArg Nat.succ hlength, List.forall_mem_cons.mpr ⟨hn, hlimits⟩⟩
  rw [Option.some.inj hsep, dotted, intercalate_write, List.append_assoc]

/-- Nothing but its canonical text is read as a v4 address. -/
theorem eq_chars_of_ofChars? (ha : a.family = .v4) (h : ofChars? s = some a) : s = a.chars := by
  unfold ofChars? at h
  split at h
  · obtain ⟨ns, -, rfl⟩ := Option.map_eq_some_iff.mp h
    cases (family_ofSegments _ _).symm.trans ha
  split at h
  · split at h
    · rename_i ns hns
      cases h
      obtain ⟨hs, hlength, hlimits⟩ := eq_dotted_of_readDotted? hns
      have hsegs : (ofSegments .v4 ns).segments = ns := segments_ofSegments hlimits hlength
      have hchars : (ofSegments .v4 ns).chars = dotted (ofSegments .v4 ns).segments := rfl
      rw [hchars, hsegs, hs, List.append_nil]
    · cases h
  · cases h

/-! ## Texts -/

@[simp] theorem ofText?_strip (text : String) : ofText? (Text.strip text) = ofText? text := by
  rw [ofText?, ofText?, Text.strip, String.toList_ofList, Text.trim_trim]

theorem ofText?_of_strip (h : Text.strip text = a.text) : ofText? text = some a := by
  rw [← ofText?_strip, h, ofText?_text]

theorem ofText?_eq_some_iff_of_v4 (ha : a.family = .v4) : ofText? text = some a ↔ Text.strip text = a.text := by
  refine ⟨fun h => ?_, ofText?_of_strip⟩
  rw [Text.strip, Address.text, eq_chars_of_ofChars? ha h]

theorem parse_eq_ok_iff : parse text = .ok a ↔ ofText? text = some a := by
  unfold parse
  cases ofText? text <;> simp

end Peripheral.Address
