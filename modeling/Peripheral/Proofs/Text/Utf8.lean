import Mathlib.Data.List.Basic
import Peripheral.Text.Utf8

/-
  Peripheral.Proofs.Text.Utf8 — reading back the bytes of a text.

  The bytes of a text are those of its characters one after the other (`encode_eq`). The first
  byte of a character announces how many follow and from where: a character of three or four
  bytes has a narrower second byte where its code point would fit fewer bytes, be a surrogate
  or lie beyond the last one. Of every character the announced bytes are there, and they hold
  its code point (`next_utf8EncodeChar`), so a text is read back whole (`decode?_encode`).
-/

namespace Peripheral.Text.Utf8

/-! ## The bytes of a text -/

theorem toList_loop (bs : ByteArray) (i : Nat) (acc : List UInt8) :
    ByteArray.toList.loop bs i acc = acc.reverse ++ bs.data.toList.drop i := by
  fun_induction ByteArray.toList.loop bs i acc with
  | case1 i acc hi ih =>
    have hi' : i < bs.data.toList.length := hi
    have hget : bs.get! i = bs.data.toList[i] := getElem!_pos bs.data i hi
    rw [ih, List.drop_eq_getElem_cons hi', hget, List.reverse_cons, List.append_assoc, List.singleton_append]
  | case2 i acc hi =>
    have hi' : bs.data.toList.length ≤ i := Nat.le_of_not_lt hi
    rw [List.drop_eq_nil_of_le hi', List.append_nil]

theorem encode_eq (s : String) : encode s = s.toList.flatMap String.utf8EncodeChar := by
  rw [encode, String.toUTF8_eq_toByteArray, ← String.utf8Encode_toList, ByteArray.toList, toList_loop, List.utf8Encode,
    List.toList_data_toByteArray]
  rfl

/-! ## One character -/

section Bytes

variable {lo hi n m acc : Nat} {more : List (Nat × Nat)} {bs : List UInt8}

theorem toNat_byte (hn : n < 256) : (UInt8.ofNat n).toNat = n := UInt8.toNat_ofNat_of_lt' hn

/-- What is announced and there is read. -/
theorem next_of {b : UInt8} {ranges : List (Nat × Nat)} {bits : Nat} {rest : List UInt8}
    (hleading : leading? b = some (ranges, bits)) (hcontinue : continue? ranges bits bs = (some n, rest)) :
    next b bs = (some (Char.ofNat n), rest) := by
  rw [next, hleading]
  show ((continue? ranges bits bs).1.map Char.ofNat, (continue? ranges bits bs).2) = _
  rw [hcontinue, Option.map_some]

/-- A byte in range hands over its low six bits. -/
theorem continue?_cons (hlo : lo ≤ n % 64 + 128) (hhi : n % 64 + 128 ≤ hi) :
    continue? ((lo, hi) :: more) acc (UInt8.ofNat (n % 64 + 128) :: bs) = continue? more (acc * 64 + n % 64) bs := by
  have hbyte : (UInt8.ofNat (n % 64 + 128)).toNat = n % 64 + 128 := toNat_byte (by omega)
  rw [continue?, inRange, hbyte, if_pos (by simp [hlo, hhi]), Nat.add_sub_cancel]

theorem next_one (hn : n < 0x80) : next (UInt8.ofNat n) bs = (some (Char.ofNat n), bs) := by
  have hleading : leading? (UInt8.ofNat n) = some ([], n) := by
    simp only [leading?, toNat_byte (show n < 256 by omega), if_pos hn]
  exact next_of hleading rfl

theorem leading?_two (hlo : 0xC2 ≤ n) (hhi : n < 0xE0) :
    leading? (UInt8.ofNat n) = some ([(0x80, 0xBF)], n - 0xC0) := by
  simp only [leading?, toNat_byte (show n < 256 by omega)]
  rw [if_neg (by omega), if_neg (by omega), if_pos hhi]

theorem next_two (hlo : 0x80 ≤ n) (hhi : n < 0x800) :
    next (UInt8.ofNat (n / 64 % 32 + 192)) (UInt8.ofNat (n % 64 + 128) :: bs) = (some (Char.ofNat n), bs) := by
  refine next_of (leading?_two (by omega) (by omega)) ?_
  rw [continue?_cons (by omega) (by omega), continue?]
  exact congrArg (some ·, bs) (by omega)

/-- Where the second of three bytes may lie. -/
def secondOfThree (n : Nat) : Nat × Nat :=
  if n = 0xE0 then (0xA0, 0xBF) else if n = 0xED then (0x80, 0x9F) else (0x80, 0xBF)

theorem leading?_three (hlo : 0xE0 ≤ n) (hhi : n < 0xF0) :
    leading? (UInt8.ofNat n) = some ([secondOfThree n, (0x80, 0xBF)], n - 0xE0) := by
  by_cases hfirst : n = 0xE0
  · subst hfirst
    rfl
  by_cases hsurrogate : n = 0xED
  · subst hsurrogate
    rfl
  simp only [leading?, toNat_byte (show n < 256 by omega)]
  rw [if_neg (by omega), if_neg (by omega), if_neg (by omega), if_neg (by simpa using hfirst),
    if_neg (by simpa using hsurrogate), if_pos hhi, secondOfThree, if_neg hfirst, if_neg hsurrogate]

theorem next_three (hlo : 0x800 ≤ n) (hhi : n < 0x10000) (hsurrogate : n < 0xD800 ∨ 0xDFFF < n) :
    next (UInt8.ofNat (n / 4096 % 16 + 224)) (UInt8.ofNat (n / 64 % 64 + 128) :: UInt8.ofNat (n % 64 + 128) :: bs) =
      (some (Char.ofNat n), bs) := by
  have hsecond : (secondOfThree (n / 4096 % 16 + 224)).1 ≤ n / 64 % 64 + 128 ∧
      n / 64 % 64 + 128 ≤ (secondOfThree (n / 4096 % 16 + 224)).2 := by
    unfold secondOfThree
    split
    · dsimp only
      omega
    · split <;> dsimp only <;> omega
  refine next_of (leading?_three (by omega) (by omega)) ?_
  rw [continue?_cons hsecond.1 hsecond.2, continue?_cons (by omega) (by omega), continue?]
  exact congrArg (some ·, bs) (by omega)

/-- Where the second of four bytes may lie. -/
def secondOfFour (n : Nat) : Nat × Nat :=
  if n = 0xF0 then (0x90, 0xBF) else if n = 0xF4 then (0x80, 0x8F) else (0x80, 0xBF)

theorem leading?_four (hlo : 0xF0 ≤ n) (hhi : n < 0xF5) :
    leading? (UInt8.ofNat n) = some ([secondOfFour n, (0x80, 0xBF), (0x80, 0xBF)], n - 0xF0) := by
  have hcases : n = 0xF0 ∨ n = 0xF1 ∨ n = 0xF2 ∨ n = 0xF3 ∨ n = 0xF4 := by omega
  rcases hcases with rfl | rfl | rfl | rfl | rfl <;> rfl

theorem next_four (hlo : 0x10000 ≤ n) (hhi : n < 0x110000) :
    next (UInt8.ofNat (n / 262144 % 8 + 240)) (UInt8.ofNat (n / 4096 % 64 + 128) ::
      UInt8.ofNat (n / 64 % 64 + 128) :: UInt8.ofNat (n % 64 + 128) :: bs) = (some (Char.ofNat n), bs) := by
  have hsecond : (secondOfFour (n / 262144 % 8 + 240)).1 ≤ n / 4096 % 64 + 128 ∧
      n / 4096 % 64 + 128 ≤ (secondOfFour (n / 262144 % 8 + 240)).2 := by
    unfold secondOfFour
    split
    · dsimp only
      omega
    · split <;> dsimp only <;> omega
  refine next_of (leading?_four (by omega) (by omega)) ?_
  rw [continue?_cons hsecond.1 hsecond.2, continue?_cons (by omega) (by omega), continue?_cons (by omega) (by omega),
    continue?]
  exact congrArg (some ·, bs) (by omega)

end Bytes

/-- A character is read off its own bytes. -/
theorem next_utf8EncodeChar (c : Char) (bs : List UInt8) :
    ∃ b tail, String.utf8EncodeChar c = b :: tail ∧ next b (tail ++ bs) = (some c, bs) := by
  have hvalid : c.toNat < 0xD800 ∨ 0xDFFF < c.toNat ∧ c.toNat < 0x110000 := c.valid
  have hc : Char.ofNat c.val.toNat = c := Char.ofNat_toNat c
  change c.val.toNat < 0xD800 ∨ 0xDFFF < c.val.toNat ∧ c.val.toNat < 0x110000 at hvalid
  have hread : ∀ {b tail}, next b (tail ++ bs) = (some (Char.ofNat c.val.toNat), bs) →
      ∃ b' tail', b :: tail = b' :: tail' ∧ next b' (tail' ++ bs) = (some c, bs) := by
    intro b tail h
    exact ⟨b, tail, rfl, hc ▸ h⟩
  unfold String.utf8EncodeChar
  dsimp only
  split
  · exact hread (next_one (by omega))
  split
  · exact hread (next_two (by omega) (by omega))
  split
  · exact hread (next_three (by omega) (by omega) (by omega))
  · exact hread (next_four (by omega) (by omega))

/-! ## A whole text -/

theorem characters_flatMap (cs : List Char) {fuel : Nat} (hfuel : (cs.flatMap String.utf8EncodeChar).length ≤ fuel) :
    characters fuel (cs.flatMap String.utf8EncodeChar) = cs.map some := by
  induction cs generalizing fuel with
  | nil => cases fuel <;> rfl
  | cons c cs ih =>
    obtain ⟨b, tail, hbytes, hnext⟩ := next_utf8EncodeChar c (cs.flatMap String.utf8EncodeChar)
    rw [List.flatMap_cons, hbytes, List.cons_append, List.length_cons, List.length_append] at hfuel
    obtain ⟨fuel, rfl⟩ : ∃ k, fuel = k + 1 := ⟨fuel - 1, by omega⟩
    rw [List.flatMap_cons, hbytes, List.cons_append, characters, hnext, List.map_cons]
    exact congrArg (some c :: ·) (ih (by omega))

theorem mapM_some (cs : List Char) : (cs.map some).mapM id = some cs := by
  induction cs with
  | nil => rfl
  | cons c cs ih => simp [ih]

/-- A text is read back from its bytes. -/
theorem decode?_encode (s : String) : decode? (encode s) = some s := by
  rw [decode?, encode_eq, characters_flatMap _ (Nat.le_refl _), mapM_some, Option.map_some, String.ofList_toList]

/-- Nothing of a text is lost where lossy reading is asked for. -/
theorem decodeLossy_encode (s : String) : decodeLossy (encode s) = s := by
  have hchars : (s.toList.map some).map (·.getD '\ufffd') = s.toList := by
    rw [List.map_map]
    exact List.map_id'' (fun _ => rfl) _
  rw [decodeLossy, encode_eq, characters_flatMap _ (Nat.le_refl _), hchars, String.ofList_toList]

end Peripheral.Text.Utf8
