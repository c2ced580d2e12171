import Peripheral.Mac
import Peripheral.Proofs.Address.Arithmetic
import Peripheral.Proofs.Address.Text
import Peripheral.Proofs.Text.Numeral

/-
  Peripheral.Proofs.Address.RoundTrip — the canonical text of an address is read back as that
  address.

  Numbers are read off the front of a text up to their separator (`readNumber?_write`), so
  dotted and colon forms are read part by part (`readOctets?_after`, `readGroups_after`). A text
  without a dot is never taken for a dotted form (`readEmbedded?_eq_none`). The gap of a
  compressed form stands for the zeros that it was written for (`longestZeros_spec`).
-/

namespace Peripheral

namespace Address

open Text.Numeral (write digit?)

/-- Numbers with a separator in front of each. -/
def after (sep : Char) (radix : Nat) (ns : List Nat) : List Char := ns.flatMap fun n => sep :: write radix n

/-- No digit stands in front. -/
def NoDigit (radix : Nat) (s : List Char) : Prop := ∀ c ∈ s.head?, (digit? radix c).isSome = false

variable {radix most n room : Nat} {zeroPadded : Bool} {s rest : List Char} {ns gs : List Nat}

theorem noDigit_nil (radix : Nat) : NoDigit radix [] := nofun

theorem noDigit_cons {c : Char} (hc : (digit? radix c).isSome = false) (s : List Char) : NoDigit radix (c :: s) := by
  intro d hd
  cases hd
  exact hc

theorem noDigit_after {sep : Char} (hsep : (digit? radix sep).isSome = false) (hrest : NoDigit radix rest)
    (ns : List Nat) : NoDigit radix (after sep radix ns ++ rest) := by
  cases ns with
  | nil => exact hrest
  | cons n ns => exact noDigit_cons hsep _

theorem intercalate_write (sep : Char) (radix n : Nat) (ns : List Nat) :
    [sep].intercalate ((n :: ns).map (write radix)) = write radix n ++ after sep radix ns := by
  induction ns generalizing n with
  | nil => simp [after]
  | cons m ns ih =>
    rw [List.map_cons, List.map_cons, List.intercalate_cons_cons, ← List.map_cons, ih]
    simp [after]

/-! ## Numbers -/

theorem notMem_write {c : Char} (hr : 1 < radix) (hr' : radix ≤ 16) (hc : (digit? radix c).isSome = false) (n : Nat) :
    c ∉ write radix n := by
  intro hmem
  rw [Text.Numeral.isSome_digit?_of_mem_write hr hr' hmem] at hc
  cases hc

theorem readNumber?_write (hr : 1 < radix) (hr' : radix ≤ 16) (hlength : (write radix n).length ≤ most)
    (hrest : NoDigit radix rest) : readNumber? radix most zeroPadded (write radix n ++ rest) = some (n, rest) := by
  have hdigits : ∀ c ∈ write radix n, (digit? radix c).isSome = true :=
    fun c => Text.Numeral.isSome_digit?_of_mem_write hr hr'
  have hzero : ¬ (!zeroPadded && (write radix n).head? == some '0' && decide ((write radix n).length > 1)) = true := by
    simp only [Bool.and_eq_true, beq_iff_eq, decide_eq_true_eq, not_and]
    intro h
    have hone := Text.Numeral.length_write_of_head? hr hr' h.2
    omega
  unfold readNumber?
  dsimp only
  rw [Text.Numeral.takeWhile_front hdigits hrest, Text.Numeral.dropWhile_front hdigits hrest, if_neg (by omega),
    if_neg hzero, Text.Numeral.unsigned?_write hr hr']
  rfl

/-! ## Dotted form -/

theorem readOctets?_succ {first : Bool} {count : Nat} {t : List Char} (hsep : passSeparator? '.' first s = some t)
    (hn : n < 256) (hrest : NoDigit 10 rest) (ht : t = write 10 n ++ rest) :
    readOctets? first (count + 1) s = (readOctets? false count rest).map fun (ns, s) => (n :: ns, s) := by
  have hlength : (write 10 n).length ≤ 3 := (Text.Numeral.length_write_le_iff (by omega) (by omega)).mpr (by omega)
  have hnumber : readNumber? 10 3 false t = some (n, rest) :=
    ht ▸ readNumber?_write (by omega) (by omega) hlength hrest
  cases hs : readOctets? false count rest <;> simp [readOctets?, hsep, hnumber, show ¬ 255 < n by omega, hs]

theorem readOctets?_after (hns : ∀ n ∈ ns, n < 256) (hrest : NoDigit 10 rest) :
    readOctets? false ns.length (after '.' 10 ns ++ rest) = some (ns, rest) := by
  induction ns with
  | nil => rfl
  | cons n ns ih =>
    have hsep : passSeparator? '.' false (after '.' 10 (n :: ns) ++ rest) =
        some (write 10 n ++ (after '.' 10 ns ++ rest)) := by simp [after, passSeparator?]
    rw [List.length_cons, readOctets?_succ hsep (hns n List.mem_cons_self) (noDigit_after (by decide) hrest ns) rfl,
      ih fun m hm => hns m (List.mem_cons_of_mem n hm)]
    rfl

theorem readDotted?_dotted (hns : ∀ n ∈ ns, n < 256) (hlength : ns.length = 4) (hrest : NoDigit 10 rest) :
    readDotted? (dotted ns ++ rest) = some (ns, rest) := by
  obtain ⟨n, ns, rfl⟩ := List.exists_cons_of_length_eq_add_one hlength
  have htext : dotted (n :: ns) ++ rest = write 10 n ++ (after '.' 10 ns ++ rest) := by
    rw [dotted, intercalate_write, List.append_assoc]
  have hthree : ns.length = 3 := Nat.succ.inj hlength
  have htail : readOctets? false 3 (after '.' 10 ns ++ rest) = some (ns, rest) :=
    hthree ▸ readOctets?_after (fun m hm => hns m (List.mem_cons_of_mem n hm)) hrest
  rw [readDotted?, htext, readOctets?_succ rfl (hns n List.mem_cons_self) (noDigit_after (by decide) hrest ns) rfl,
    htail]
  rfl

theorem Reads.notMem {x : Char} (h : Reads s rest) (hx : x ∉ s) : x ∉ rest := by
  obtain ⟨front, rfl, -⟩ := h
  exact fun hmem => hx (List.mem_append_right front hmem)

theorem passSeparator?_eq_none {sep : Char} (h : sep ∉ s) : passSeparator? sep false s = none := by
  cases s with
  | nil => rfl
  | cons c s => exact if_neg (List.ne_of_not_mem_cons h).symm

/-- The second number needs a dot in front. -/
theorem readOctets?_eq_none {first : Bool} {count : Nat} (hdot : '.' ∉ s) : readOctets? first (count + 2) s = none := by
  rw [readOctets?]
  cases hsep : passSeparator? '.' first s with
  | none => rfl
  | some t =>
    cases hn : readNumber? 10 3 false t with
    | none => simp [hn]
    | some r =>
      have ht : '.' ∉ t := (reads_of_passSeparator (by decide) hsep).notMem hdot
      have hr : '.' ∉ r.2 := (reads_of_readNumber (by decide) hn).notMem ht
      simp [hn, readOctets?, passSeparator?_eq_none hr]

theorem readEmbedded?_eq_none {first : Bool} (hdot : '.' ∉ s) : readEmbedded? first s = none := by
  rw [readEmbedded?]
  cases hsep : passSeparator? ':' first s with
  | none => rfl
  | some t =>
    have ht : '.' ∉ t := (reads_of_passSeparator (by decide) hsep).notMem hdot
    have hnone : readDotted? t = none := readOctets?_eq_none ht
    simp [hnone]

/-! ## Colon form -/

/-- No group stands in front. -/
def Stops (rest : List Char) : Prop := rest = [] ∨ ∃ s, rest = ':' :: ':' :: s

theorem Stops.noDigit (h : Stops rest) : NoDigit 16 rest := by
  rcases h with rfl | ⟨s, rfl⟩
  · exact noDigit_nil 16
  · exact noDigit_cons (by decide) _

theorem Stops.readGroup? (h : Stops rest) (first : Bool) : readGroup? first rest = none := by
  rcases h with rfl | ⟨s, rfl⟩
  · cases first <;> rfl
  · cases first <;> rfl

theorem readGroups_of_stops (hrest : Stops rest) (hdot : '.' ∉ rest) (first : Bool) :
    readGroups first room rest = ⟨[], false, rest⟩ := by
  cases room with
  | zero => rfl
  | succ room => simp [readGroups, readEmbedded?_eq_none hdot, hrest.readGroup?]

theorem readGroup?_write {first : Bool} {t : List Char} (hsep : passSeparator? ':' first s = some t) (hn : n < 65536)
    (hrest : NoDigit 16 rest) (ht : t = write 16 n ++ rest) : readGroup? first s = some (n, rest) := by
  have hlength : (write 16 n).length ≤ 4 := (Text.Numeral.length_write_le_iff (by omega) (by omega)).mpr (by omega)
  have hnumber : readNumber? 16 4 true t = some (n, rest) :=
    ht ▸ readNumber?_write (by omega) (by omega) hlength hrest
  simp [Address.readGroup?, hsep, hnumber]

theorem readGroups_succ {first : Bool} (hdot : '.' ∉ s) (hgroup : readGroup? first s = some (n, rest)) :
    readGroups first (room + 1) s =
      ⟨n :: (readGroups false room rest).groups, (readGroups false room rest).dotted, (readGroups false room rest).rest⟩ := by
  simp [readGroups, readEmbedded?_eq_none hdot, hgroup]

theorem dot_notMem_write (n : Nat) : '.' ∉ write 16 n := notMem_write (by omega) (by omega) (by decide) n

theorem dot_notMem_after (gs : List Nat) : '.' ∉ after ':' 16 gs := by
  simp [after, dot_notMem_write]

theorem readGroups_after (hgs : ∀ g ∈ gs, g < 65536) (hroom : gs.length ≤ room) (hrest : Stops rest)
    (hdot : '.' ∉ rest) :
    readGroups false room (after ':' 16 gs ++ rest) = ⟨gs, false, rest⟩ := by
  induction gs generalizing room with
  | nil => exact readGroups_of_stops hrest hdot false
  | cons g gs ih =>
    obtain ⟨room, rfl⟩ : ∃ k, room = k + 1 := ⟨room - 1, by simp at hroom; omega⟩
    have hsep : passSeparator? ':' false (after ':' 16 (g :: gs) ++ rest) =
        some (write 16 g ++ (after ':' 16 gs ++ rest)) := by simp [after, passSeparator?]
    have hgroup : readGroup? false (after ':' 16 (g :: gs) ++ rest) = some (g, after ':' 16 gs ++ rest) :=
      readGroup?_write hsep (hgs g List.mem_cons_self) (noDigit_after (by decide) hrest.noDigit gs) rfl
    have htail := ih (fun x hx => hgs x (List.mem_cons_of_mem g hx)) (Nat.le_of_succ_le_succ hroom)
    rw [readGroups_succ (by simp [dot_notMem_after, hdot]) hgroup, htail]

/-- Groups with colons between them are read up to a gap or the end. -/
theorem readGroups_colons (hgs : ∀ g ∈ gs, g < 65536) (hroom : gs.length ≤ room) (hrest : Stops rest)
    (hdot : '.' ∉ rest) : readGroups true room (colons gs ++ rest) = ⟨gs, false, rest⟩ := by
  cases gs with
  | nil => exact readGroups_of_stops hrest hdot true
  | cons g gs =>
    obtain ⟨room, rfl⟩ : ∃ k, room = k + 1 := ⟨room - 1, by simp at hroom; omega⟩
    have htext : colons (g :: gs) ++ rest = write 16 g ++ (after ':' 16 gs ++ rest) := by
      rw [colons, intercalate_write, List.append_assoc]
    have hgroup : readGroup? true (write 16 g ++ (after ':' 16 gs ++ rest)) = some (g, after ':' 16 gs ++ rest) :=
      readGroup?_write rfl (hgs g List.mem_cons_self) (noDigit_after (by decide) hrest.noDigit gs) rfl
    rw [htext, readGroups_succ (by simp [dot_notMem_write, dot_notMem_after, hdot]) hgroup,
      readGroups_after (fun x hx => hgs x (List.mem_cons_of_mem g hx)) (Nat.le_of_succ_le_succ hroom) hrest hdot]

/-! ## Compressed form -/

theorem takeWhile_zero (segs : List Nat) : segs.takeWhile (· == 0) = List.replicate (zeroRun segs) 0 := by
  rw [List.eq_replicate_iff]
  refine ⟨rfl, ?_⟩
  intro x hx
  have hall := List.all_eq_true.mp (List.all_takeWhile (p := fun x => x == 0) (l := segs)) x hx
  simpa using hall

/-- The run of zeros cuts the groups in three. -/
theorem longestZeros_spec (segs : List Nat) (place : Nat) : ∃ gs hs,
    segs = gs ++ List.replicate (longestZeros segs place).2 0 ++ hs ∧ (longestZeros segs place).1 = place + gs.length := by
  induction segs generalizing place with
  | nil => exact ⟨[], [], rfl, rfl⟩
  | cons g segs ih =>
    rw [longestZeros]
    split
    · refine ⟨[], (g :: segs).dropWhile (· == 0), ?_, rfl⟩
      rw [List.nil_append, ← takeWhile_zero, List.takeWhile_append_dropWhile]
    · obtain ⟨gs, hs, hsegs, hplace⟩ := ih (place + 1)
      refine ⟨g :: gs, hs, ?_, ?_⟩
      · rw [List.cons_append, List.cons_append, ← hsegs]
      · rw [hplace, List.length_cons]
        omega

theorem readColons?_colons {segs : List Nat} (hsegs : ∀ g ∈ segs, g < 65536) (hlength : segs.length = 8) :
    readColons? (colons segs) = some segs := by
  have hhead : readGroups true 8 (colons segs ++ []) = ⟨segs, false, []⟩ :=
    readGroups_colons hsegs (by omega) (.inl rfl) (by simp)
  rw [List.append_nil] at hhead
  simp [readColons?, hhead, hlength]

theorem dot_notMem_colons (gs : List Nat) : '.' ∉ colons gs := by
  cases gs with
  | nil => simp [colons]
  | cons g gs =>
    rw [colons, intercalate_write]
    simp [dot_notMem_write, dot_notMem_after]

/-- A gap stands for as many zeros as are missing. -/
theorem readColons?_gap {gs hs : List Nat} {len : Nat} (hgs : ∀ g ∈ gs, g < 65536) (hhs : ∀ g ∈ hs, g < 65536)
    (hlength : gs.length + len + hs.length = 8) (hlen : 0 < len) :
    readColons? (colons gs ++ [':', ':'] ++ colons hs) = some (gs ++ List.replicate len 0 ++ hs) := by
  have hhead : readGroups true 8 (colons gs ++ (':' :: ':' :: colons hs)) = ⟨gs, false, ':' :: ':' :: colons hs⟩ :=
    readGroups_colons hgs (by omega) (.inr ⟨_, rfl⟩) (by simp [dot_notMem_colons])
  have htail : readGroups true (7 - gs.length) (colons hs ++ []) = ⟨hs, false, []⟩ :=
    readGroups_colons hhs (by omega) (.inl rfl) (by simp)
  have hgap : 8 - (gs.length + hs.length) = len := by omega
  rw [List.append_nil] at htail
  simp [readColons?, hhead, htail, hgap, show gs.length ≠ 8 by omega]

theorem readColons?_compressed {segs : List Nat} (hsegs : ∀ g ∈ segs, g < 65536) (hlength : segs.length = 8) :
    readColons? (compressed segs) = some segs := by
  obtain ⟨gs, hs, hcut, hplace⟩ := longestZeros_spec segs 0
  rw [compressed]
  generalize longestZeros segs 0 = run at hcut hplace
  obtain ⟨place, len⟩ := run
  dsimp only at hcut hplace ⊢
  rw [Nat.zero_add] at hplace
  split
  · have htake : segs.take place = gs := by
      rw [hcut, hplace, List.append_assoc, List.take_left]
    have hdrop : segs.drop (place + len) = hs := by
      rw [hcut, hplace, List.drop_left']
      simp
    rw [htake, hdrop]
    subst hcut
    simp only [List.length_append, List.length_replicate] at hlength
    exact readColons?_gap (fun g hg => hsegs g (by simp [hg])) (fun g hg => hsegs g (by simp [hg])) hlength (by omega)
  · exact readColons?_colons hsegs hlength

/-- An embedded dotted address is two groups. -/
theorem readColons?_mapped {g h : Nat} (hg : g < 65536) (hh : h < 65536) :
    readColons? ("::ffff:".toList ++ dotted [g / 256, g % 256, h / 256, h % 256]) =
      some [0, 0, 0, 0, 0, 0xffff, g, h] := by
  have hoctets : ∀ n ∈ [g / 256, g % 256, h / 256, h % 256], n < 256 := by
    simp only [List.mem_cons, List.not_mem_nil, or_false]
    omega
  have hdotted : readDotted? (dotted [g / 256, g % 256, h / 256, h % 256] ++ []) = some (_, []) :=
    readDotted?_dotted hoctets rfl (noDigit_nil 10)
  rw [List.append_nil] at hdotted
  have hpair : readEmbedded? false (':' :: dotted [g / 256, g % 256, h / 256, h % 256]) = some ([g, h], []) := by
    simp [readEmbedded?, passSeparator?, hdotted, Nat.div_add_mod']
  generalize dotted [g / 256, g % 256, h / 256, h % 256] = s at hpair ⊢
  have hhead : readGroups true 8 ("::ffff:".toList ++ s) = ⟨[], false, "::ffff:".toList ++ s⟩ := rfl
  have htail : readGroups true 7 ("ffff:".toList ++ s) =
      ⟨0xffff :: (readGroups false 6 (':' :: s)).groups, (readGroups false 6 (':' :: s)).dotted,
        (readGroups false 6 (':' :: s)).rest⟩ := rfl
  have hrest : readGroups false 6 (':' :: s) = ⟨[g, h], true, []⟩ := by simp [readGroups, hpair]
  rw [hrest] at htail
  have hgap : readColons? ("::ffff:".toList ++ s) =
      if (readGroups true 7 ("ffff:".toList ++ s)).rest.isEmpty then
        some (List.replicate (8 - (0 + (readGroups true 7 ("ffff:".toList ++ s)).groups.length)) 0 ++
          (readGroups true 7 ("ffff:".toList ++ s)).groups)
      else none := rfl
  rw [hgap, htail]
  rfl

theorem readColons?_groupsText {segs : List Nat} (hsegs : ∀ g ∈ segs, g < 65536) (hlength : segs.length = 8) :
    readColons? (groupsText segs) = some segs := by
  unfold groupsText
  split
  · exact readColons?_mapped (hsegs _ (by simp)) (hsegs _ (by simp))
  · exact readColons?_compressed hsegs hlength

theorem colon_mem_groupsText {segs : List Nat} (hlength : segs.length = 8) : ':' ∈ groupsText segs := by
  unfold groupsText
  split
  · simp
  · unfold compressed
    split
    split
    · simp
    · obtain ⟨g, gs, rfl⟩ := List.exists_cons_of_length_eq_add_one hlength
      obtain ⟨h, gs, rfl⟩ := List.exists_cons_of_length_eq_add_one (Nat.succ.inj hlength)
      rw [colons, intercalate_write]
      simp [after]

/-! ## Addresses -/

theorem ofSegments_segments (a : Address) : ofSegments a.family a.segments = a := by
  have hsegs : (ofSegments a.family a.segments).segments = a.segments :=
    segments_ofSegments (digits_segments a) (length_segments a)
  apply eq_of_toBits_eq (family_ofSegments _ _)
  rw [toBits, toBits, family_ofSegments, hsegs]

theorem colon_notMem_dotted (ns : List Nat) : ':' ∉ dotted ns := by
  have hnumber := notMem_write (by omega : 1 < 10) (by omega) (show (digit? 10 ':').isSome = false by decide)
  cases ns with
  | nil => simp [dotted]
  | cons n ns =>
    rw [dotted, intercalate_write]
    simp [after, hnumber]

theorem ofChars?_chars (a : Address) : ofChars? a.chars = some a := by
  have hback := ofSegments_segments a
  have hlength := length_segments a
  have hdigits := digits_segments a
  cases a with
  | v4 octets =>
    have hread : readDotted? (dotted (v4 octets).segments ++ []) = some ((v4 octets).segments, []) :=
      readDotted?_dotted hdigits hlength (noDigit_nil 10)
    rw [List.append_nil] at hread
    obtain ⟨n, ns, hns⟩ := List.exists_cons_of_length_eq_add_one hlength
    obtain ⟨m, ns, rfl⟩ := List.exists_cons_of_length_eq_add_one (Nat.succ.inj (hns ▸ hlength))
    have hcolon : ':' ∉ dotted (v4 octets).segments := colon_notMem_dotted _
    have hdot : '.' ∈ dotted (v4 octets).segments := by
      rw [hns, dotted, intercalate_write]
      simp [after]
    simp only [ofChars?, chars, List.contains_iff_mem, hcolon, hdot, if_false, if_true, hread]
    exact congrArg some hback
  | v6 groups =>
    have hread := readColons?_groupsText hdigits hlength
    have hcolon := colon_mem_groupsText hlength
    simp only [ofChars?, chars, List.contains_iff_mem, hcolon, if_true, hread]
    exact congrArg some hback

theorem toNat_of_isWritten {c : Char} (hc : isWritten c = true) : 46 ≤ c.toNat ∧ c.toNat ≤ 102 := by
  simp only [isWritten, Bool.or_eq_true, beq_iff_eq] at hc
  rcases hc with (hdigit | rfl) | rfl
  · simp only [digit?] at hdigit
    grind
  · decide
  · decide

theorem not_isBlank_of_isWritten {c : Char} (hc : isWritten c = true) : Text.isBlank c = false := by
  have hrange := toNat_of_isWritten hc
  simp only [Text.isBlank, Bool.or_eq_false_iff, Bool.and_eq_false_iff, decide_eq_false_iff_not, beq_eq_false_iff_ne]
  omega

theorem not_isBlank_of_mem_chars (a : Address) : ∀ c ∈ a.chars, Text.isBlank c = false :=
  fun c hc => not_isBlank_of_isWritten (isWritten_of_ofChars (ofChars?_chars a) c hc)

/-- Every address is read back from its canonical text. -/
theorem ofText?_text (a : Address) : ofText? a.text = some a := by
  rw [ofText?, text, String.toList_ofList, Text.trim_eq_self (not_isBlank_of_mem_chars a), ofChars?_chars]

/-- No two addresses have one canonical text. -/
theorem text_injective : Function.Injective text :=
  fun a b h => Option.some.inj (by rw [← a.ofText?_text, h, b.ofText?_text])

end Address

/-! ## Hardware addresses -/

namespace Mac

open Text.Numeral (bounded digit? padded read? write_digit write_more)

/-- What is written between the colons. -/
def upperDigit (d : Nat) : Char := (Nat.digitChar d).toUpper

theorem upperDigit_spec {d : Nat} (hd : d < 16) :
    digit? 16 (upperDigit d) = some d ∧ (upperDigit d).utf8Size = 1 ∧ upperDigit d ≠ '+' ∧
      isSeparator (upperDigit d) = false ∧ Address.isWritten (upperDigit d) = true := by
  have hall : ∀ d < 16, digit? 16 (upperDigit d) = some d ∧ (upperDigit d).utf8Size = 1 ∧ upperDigit d ≠ '+' ∧
      isSeparator (upperDigit d) = false ∧ Address.isWritten (upperDigit d) = true := by decide
  exact hall d hd

theorem upperOctet_eq {m d : Nat} (hm : m < 16) (hd : d < 16) :
    upperOctet (16 * m + d) = [upperDigit m, upperDigit d] := by
  unfold upperOctet padded
  rcases Nat.eq_zero_or_pos m with rfl | hpos
  · rw [Nat.mul_zero, Nat.zero_add, write_digit hd]
    rfl
  · rw [write_more (by decide) hpos hd, write_digit hm]
    rfl

theorem readPart?_digits {m d : Nat} (hm : m < 16) (hd : d < 16) :
    readPart? [upperDigit m, upperDigit d] = some (16 * m + d) := by
  obtain ⟨hmdigit, hmsize, hmplus, -, -⟩ := upperDigit_spec hm
  obtain ⟨hddigit, hdsize, -, -, -⟩ := upperDigit_spec hd
  have hlimit : m * 16 + d < 256 := by omega
  have hlimit' : m < 256 := by omega
  simp [readPart?, byteLength, hmsize, hdsize, read?, Text.Numeral.parse, hmplus, bounded, hmdigit, hddigit, hlimit,
    hlimit', Except.toOption, Nat.mul_comm]

theorem octet_eq (o : UInt8) : ∃ m d, m < 16 ∧ d < 16 ∧ o.toNat = 16 * m + d := by
  have ho : o.toNat < 256 := o.toNat_lt
  exact ⟨o.toNat / 16, o.toNat % 16, by omega, by omega, by omega⟩

theorem readPart?_upperOctet (o : UInt8) : readPart? (upperOctet o.toNat) = some o.toNat := by
  obtain ⟨m, d, hm, hd, ho⟩ := octet_eq o
  rw [ho, upperOctet_eq hm hd, readPart?_digits hm hd]

/-- Two digits have no separator among them. -/
theorem mem_upperOctet {o : UInt8} {c : Char} (hc : c ∈ upperOctet o.toNat) :
    isSeparator c = false ∧ Address.isWritten c = true := by
  obtain ⟨m, d, hm, hd, ho⟩ := octet_eq o
  rw [ho, upperOctet_eq hm hd, List.mem_cons, List.mem_singleton] at hc
  rcases hc with rfl | rfl
  · exact (upperDigit_spec hm).2.2.2
  · exact (upperDigit_spec hd).2.2.2

theorem splitOnP_intercalate {parts : List (List Char)} (hparts : ∀ l ∈ parts, ∀ c ∈ l, isSeparator c = false)
    (hne : parts ≠ []) : ([':'].intercalate parts).splitOnP isSeparator = parts := by
  induction parts with
  | nil => exact absurd rfl hne
  | cons l parts ih =>
    have hl := hparts l List.mem_cons_self
    cases parts with
    | nil => rw [List.intercalate_singleton, List.splitOnP_eq_singleton hl]
    | cons m parts =>
      have htail := ih (fun l h => hparts l (List.mem_cons_of_mem _ h)) (List.cons_ne_nil m parts)
      rw [List.intercalate_cons_cons, List.append_assoc, List.singleton_append,
        List.splitOnP_append_cons_of_forall_mem hl ':' rfl, htail]

/-- The octets as text, with nothing between them yet. -/
def parts (octets : List UInt8) : List (List Char) := octets.map fun o => upperOctet o.toNat

theorem mem_parts {octets : List UInt8} {l : List Char} (hl : l ∈ parts octets) :
    ∀ c ∈ l, isSeparator c = false ∧ Address.isWritten c = true := by
  obtain ⟨o, -, rfl⟩ := List.mem_map.mp hl
  exact fun c => mem_upperOctet

theorem mem_of_mem_intercalate {sep c : Char} {ls : List (List Char)} (hc : c ∈ [sep].intercalate ls) :
    (∃ l ∈ ls, c ∈ l) ∨ c = sep := by
  induction ls with
  | nil => cases hc
  | cons l ls ih =>
    cases ls with
    | nil => exact .inl ⟨l, List.mem_cons_self, by simpa using hc⟩
    | cons k ls =>
      rw [List.intercalate_cons_cons, List.append_assoc, List.mem_append, List.singleton_append, List.mem_cons] at hc
      rcases hc with hc | rfl | hc
      · exact .inl ⟨l, List.mem_cons_self, hc⟩
      · exact .inr rfl
      · exact (ih hc).imp_left fun ⟨l, hl, hcl⟩ => ⟨l, List.mem_cons_of_mem _ hl, hcl⟩

/-- The text has the characters of address texts only. -/
theorem isWritten_of_mem_text {m : Mac} {c : Char} (hc : c ∈ m.text.toList) : Address.isWritten c = true := by
  rw [text, String.toList_ofList] at hc
  obtain ⟨l, hl, hcl⟩ | rfl := mem_of_mem_intercalate hc
  · exact (mem_parts hl c hcl).2
  · decide

theorem mapM_parts (octets : List UInt8) : (parts octets).mapM readPart? = some (octets.map UInt8.toNat) := by
  induction octets with
  | nil => rfl
  | cons o octets ih =>
    rw [parts] at ih
    simp [parts, readPart?_upperOctet, ih]

theorem ofNats_octets (m : Mac) : ofNats (m.octets.toList.map UInt8.toNat) = m := by
  obtain ⟨octets⟩ := m
  rw [ofNats, Mac.mk.injEq]
  ext i hi
  simp [List.getD_eq_getElem?_getD]

/-- Every hardware address is read back from its text. -/
theorem ofText?_text (m : Mac) : ofText? m.text = some m := by
  have hlength : (parts m.octets.toList).length = 6 := by simp [parts]
  have hne : parts m.octets.toList ≠ [] := by
    intro hnil
    simp [hnil] at hlength
  have hcut : ([':'].intercalate (parts m.octets.toList)).splitOnP isSeparator = parts m.octets.toList :=
    splitOnP_intercalate (fun l hl c hc => (mem_parts hl c hc).1) hne
  have htrim : Text.trim m.text.toList = m.text.toList :=
    Text.trim_eq_self fun c hc => Address.not_isBlank_of_isWritten (isWritten_of_mem_text hc)
  rw [ofText?, htrim, text, String.toList_ofList, ← parts, hcut]
  rw [if_pos hlength, mapM_parts, Option.map_some, ofNats_octets]

theorem text_injective : Function.Injective text :=
  fun m n h => Option.some.inj (by rw [← m.ofText?_text, h, n.ofText?_text])

end Mac

end Peripheral
