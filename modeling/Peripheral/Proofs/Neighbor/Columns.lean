import Peripheral.Neighbor.Forms
import Peripheral.Proofs.Address.Canonical
import Peripheral.Proofs.Neighbor.Lookup
import Peripheral.Proofs.Text.Hexadecimal
import Peripheral.Proofs.Text.Layout

/-
  Peripheral.Proofs.Neighbor.Columns — a line in columns is read back, and its flags tell whether
  its hardware address can be used.

  A line is `IP TYPE FLAGS MAC MASK DEVICE` (`IsColumnForm`). The type and the mask do not count.
  An entry without the bit for a permanent one and without the bit for a complete one is
  incomplete (`State.ofFlags_eq_incomplete_iff`), whatever the other bits are. The columns are
  looked up by number only where there are enough of them (`columnsAt?_eq`).
-/

namespace Peripheral.Neighbor

variable {ip : Address} {flags : UInt32} {mac m : Mac} {device line : String} {ws : List String} {word : String} {n : Nat}

/-! ## (1) Flags -/

theorem State.ofFlags_eq_permanent_iff : State.ofFlags n = .permanent ↔ n &&& 4 ≠ 0 := by
  unfold State.ofFlags
  split
  · rename_i h
    exact iff_of_true rfl h
  · rename_i h
    split <;> simpa using h

theorem State.ofFlags_eq_incomplete_iff : State.ofFlags n = .incomplete ↔ n &&& 4 = 0 ∧ n &&& 2 = 0 := by
  unfold State.ofFlags
  split
  · rename_i h
    simp [h]
  · rename_i h
    rw [not_not] at h
    split
    · rename_i h'
      simp [h']
    · rename_i h'
      rw [not_not] at h'
      simp [h, h']

theorem State.ofFlags_ne_failed (n : Nat) : State.ofFlags n ≠ .failed := by
  unfold State.ofFlags
  split
  · nofun
  · split <;> nofun

theorem toNat_and_eq_zero_iff (bit : UInt32) : flags.toNat &&& bit.toNat = 0 ↔ flags &&& bit = 0 := by
  rw [← UInt32.toNat_and, ← UInt32.toNat_inj]
  rfl

/-- A flag word is read as the number behind every `0x` if that has 32 bits. -/
theorem flags?_eq_some_iff : flags? word = some n ↔ Text.PassesForHex word.toList n ∧ n < 4294967296 := by
  have hlimit : 1 <<< 32 = 4294967296 := rfl
  rw [flags?, hlimit, Text.Numeral.read?_eq_some_iff, Text.parse_dropAll_eq_ok_iff (by omega)]

/-! ## (2) Lines -/

/-- The words of an entry: its address, a type, its flags in hexadecimal behind `0x`, its hardware
    address, a mask and its device; what follows does not count. -/
inductive IsColumnForm (ip : Address) (flags : UInt32) (mac : Mac) (device : String) : List String → Prop
  | intro {ipWord kind flagWord macWord mask : String} {digits : List Char} {further : List String}
      (hip : Address.ofText? ipWord = some ip) (hflags : flagWord.toList = '0' :: 'x' :: digits)
      (hdigits : Text.IsHexNumber digits flags.toNat) (hmac : mac.Spells macWord.toList) :
      IsColumnForm ip flags mac device (ipWord :: kind :: flagWord :: macWord :: mask :: device :: further)

/-- Every entry has a line, and any type and mask may stand in it. -/
theorem isColumnForm_text (ip : Address) (flags : UInt32) (mac : Mac) (kind mask device : String) (further : List String) :
    IsColumnForm ip flags mac device (ip.text :: kind ::
      String.ofList ('0' :: 'x' :: Text.Numeral.write 16 flags.toNat) :: mac.text :: mask :: device :: further) :=
  .intro (Address.ofText?_text ip) String.toList_ofList (Text.isHexNumber_write flags.toNat)
    (Mac.respells_text mac).spells

theorem ofColumns?_eq_some (h : IsColumnForm ip flags mac device ws) :
    ofColumns? ws = some ⟨ip, some mac, device, State.ofFlags flags.toNat⟩ := by
  obtain ⟨hip, hflags, hdigits, hmac⟩ := h
  have hliteral : Text.IsHexLiteral (String.toList _) flags.toNat := ⟨_, .inr hflags, hdigits⟩
  have hread := flags?_eq_some_iff.mpr ⟨hliteral.passes, flags.toNat_lt⟩
  simp [ofColumns?, hip, hread, hmac.ofText? hmac.trim]

theorem ofColumnLine?_eq_some (h : IsColumnForm ip flags mac device ws) (hline : Text.AreWordsOf ws line) :
    ofColumnLine? line = some ⟨ip, some mac, device, State.ofFlags flags.toNat⟩ := by
  rw [ofColumnLine?, Text.areWordsOf_iff.mp hline, ofColumns?_eq_some h]

/-- The hardware address can be used if the entry is complete or permanent. -/
theorem usableMac_of_flags : (⟨ip, some mac, device, State.ofFlags n⟩ : Entry).usableMac = some m ↔
    m = mac ∧ mac ≠ .zero ∧ (n &&& 2 ≠ 0 ∨ n &&& 4 ≠ 0) := by
  rw [Entry.usableMac_eq_some_iff, Option.some_inj, ne_eq (State.ofFlags n) .incomplete,
    State.ofFlags_eq_incomplete_iff, not_and_or, or_comm]
  constructor
  · rintro ⟨rfl, hzero, -, hflags⟩
    exact ⟨rfl, hzero, hflags⟩
  · rintro ⟨rfl, hzero, hflags⟩
    exact ⟨rfl, hzero, State.ofFlags_ne_failed n, hflags⟩

/-! ## (3) Columns by number -/

/-- No column that is asked for is missing. -/
theorem columnsAt?_eq (ws : List String) : columnsAt? ws = some (ofColumns? ws) := by
  match ws with
  | [] | [_] | [_, _] | [_, _, _] | [_, _, _, _] | [_, _, _, _, _] => rfl
  | ip :: _ :: flags :: mac :: _ :: device :: further =>
    have hlength : ¬ (further.length + 1 + 1 + 1 + 1 + 1 + 1 < 6) := by omega
    simp only [columnsAt?, List.length_cons, if_neg hlength, ofColumns?]
    cases hip : Address.ofText? ip with
    | none => simp [hip]
    | some a =>
      cases hflags : flags? flags <;> simp [hip, hflags]

end Peripheral.Neighbor
