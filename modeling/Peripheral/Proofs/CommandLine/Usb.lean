import Peripheral.CommandLine.Run
import Peripheral.Proofs.Criteria
import Peripheral.Proofs.Text.Hexadecimal

/-
  Peripheral.Proofs.CommandLine.Usb — which words name a vendor and a product.

  Two identifiers are meant, with a colon between them: each a hexadecimal number of 16 bits,
  perhaps with `0x` in front. What is accepted is wider by what passes for such a number
  (`parseUsb_eq_ok_iff`), and that is a plus sign and a repeated `0x`
  (`signs_and_repeated_markers_pass`).
-/

namespace Peripheral.CommandLine

open Text (IsHexLiteral IsHexNumber PassesForHex cutAt?_eq_some_iff infix_append_cons_iff isHexLiteral_iff
  isHexNumber_write parse_dropAll_eq_ok_iff)

variable {s word : List Char} {text what : String} {c : UsbCriteria} {id : UInt16} {n : Nat}

/-! ## Identifiers -/

/-- A word is refused only for what the number reader says of it. -/
theorem parseId_eq_ok_iff : parseId what word = .ok id ↔ PassesForHex word id.toNat := by
  have hread : parseId what word = .ok id ↔
      ∃ n, Text.Numeral.parse 16 65536 (Text.dropAll "0x".toList word) = .ok n ∧ UInt16.ofNat n = id := by
    unfold parseId
    cases Text.Numeral.parse 16 65536 (Text.dropAll "0x".toList word) <;> simp
  rw [hread]
  constructor
  · rintro ⟨n, h, rfl⟩
    obtain ⟨hpasses, hn⟩ := (parse_dropAll_eq_ok_iff (by omega)).mp h
    rwa [UInt16.toNat_ofNat_of_lt' hn]
  · exact fun h => ⟨id.toNat, (parse_dropAll_eq_ok_iff (by omega)).mpr ⟨h, id.toNat_lt⟩, UInt16.ofNat_toNat⟩

/-- What passes for a number has digits, markers and signs, but no colon. -/
theorem colon_notMem (h : PassesForHex s n) : ':' ∉ s := by
  obtain ⟨k, t, ds, rfl, ht, hds⟩ := h
  have hdigits : ':' ∉ ds := hds.notMem (by decide)
  have hmarkers : ':' ∉ (List.replicate k ['0', 'x']).flatten := by
    intro hmem
    obtain ⟨p, hp, hmem⟩ := List.mem_flatten.mp hmem
    rw [(List.mem_replicate.mp hp).2] at hmem
    exact absurd hmem (by decide)
  rcases ht with rfl | rfl <;> simp [hmarkers, hdigits]

theorem isHexLiteral_idText (id : UInt16) : IsHexLiteral (idText id).toList id.toNat := by
  refine ⟨_, .inl rfl, ?_⟩
  rw [idText, String.toList_ofList]
  exact (isHexNumber_write id.toNat).zeros _

/-! ## Pairs -/

/-- A vendor and a product with a colon between them, each written as `P` says; the other fields
    of the criteria accept everything. -/
inductive NamesUsb (P : List Char → Nat → Prop) : List Char → UsbCriteria → Prop
  | intro {v p : List Char} {vendor product : UInt16} (hv : P v vendor.toNat) (hp : P p product.toNat) :
      NamesUsb P (v ++ ':' :: p) ⟨vendor, product, "", ""⟩

theorem NamesUsb.mono {P Q : List Char → Nat → Prop} (hPQ : ∀ s n, P s n → Q s n) (h : NamesUsb P s c) : NamesUsb Q s c := by
  obtain ⟨hv, hp⟩ := h
  exact ⟨hPQ _ _ hv, hPQ _ _ hp⟩

theorem parseUsb_eq_ok_iff : parseUsb text = .ok c ↔ NamesUsb PassesForHex text.toList c := by
  have hread : parseUsb text = .ok c ↔ ∃ v p, Text.cutAt? ':' text.toList = some (v, p) ∧
      ∃ vendor product, parseId "vendor" v = .ok vendor ∧ parseId "product" p = .ok product ∧
        ⟨vendor, product, "", ""⟩ = c := by
    unfold parseUsb
    cases Text.cutAt? ':' text.toList with
    | none => simp [throw, throwThe, MonadExceptOf.throw]
    | some parts =>
      obtain ⟨v, p⟩ := parts
      cases hv : parseId "vendor" v <;> cases hp : parseId "product" p <;> simp [hv, hp, bind, pure, Except.bind, Except.pure]
  rw [hread]
  simp only [parseId_eq_ok_iff, cutAt?_eq_some_iff]
  constructor
  · rintro ⟨v, p, ⟨hs, -⟩, vendor, product, hv, hp, rfl⟩
    exact hs ▸ ⟨hv, hp⟩
  · intro h
    generalize text.toList = s at h
    obtain ⟨hv, hp⟩ := h
    exact ⟨_, _, ⟨rfl, colon_notMem hv⟩, _, _, hv, hp, rfl⟩

/-- A plus sign and a repeated marker are all that the meant words do not have. -/
theorem namesUsb_isHexLiteral_iff :
    NamesUsb IsHexLiteral s c ↔ NamesUsb PassesForHex s c ∧ '+' ∉ s ∧ ¬ "0x0x".toList <:+: s := by
  have hcolon : ':' ∉ "0x0x".toList := by decide
  constructor
  · intro h
    refine ⟨h.mono fun _ _ => IsHexLiteral.passes, ?_⟩
    obtain ⟨hv, hp⟩ := h
    obtain ⟨-, hv, hv'⟩ := isHexLiteral_iff.mp hv
    obtain ⟨-, hp, hp'⟩ := isHexLiteral_iff.mp hp
    rw [infix_append_cons_iff hcolon, not_or]
    exact ⟨by simp [hv, hp], hv', hp'⟩
  · rintro ⟨⟨hv, hp⟩, hplus, htwice⟩
    rw [infix_append_cons_iff hcolon, not_or] at htwice
    simp only [List.mem_append, List.mem_cons, not_or] at hplus
    exact ⟨isHexLiteral_iff.mpr ⟨hv, hplus.1, htwice.1⟩, isHexLiteral_iff.mpr ⟨hp, hplus.2.2, htwice.2⟩⟩

/-- What shows a device names it. -/
theorem parseUsb_idText (vendor product : UInt16) :
    parseUsb (idText vendor ++ ":" ++ idText product) = .ok ⟨vendor, product, "", ""⟩ := by
  rw [parseUsb_eq_ok_iff]
  have hs : (idText vendor ++ ":" ++ idText product).toList = (idText vendor).toList ++ ':' :: (idText product).toList := by
    simp
  rw [hs]
  exact ⟨(isHexLiteral_idText vendor).passes, (isHexLiteral_idText product).passes⟩

theorem admits_ids {vendor product : UInt16} {d : UsbIdentity} : (⟨vendor, product, "", ""⟩ : UsbCriteria).admits d = true ↔
    idAdmits vendor d.vendorId = true ∧ idAdmits product d.productId = true := by
  have hany : ∀ text, Pattern.admits "" text = true := fun _ => Pattern.admits_iff.mpr (.inl rfl)
  rw [UsbCriteria.admits_iff]
  simp [hany]

/-- The line that shows a device starts with its identifiers. -/
theorem idText_prefix_text (d : UsbIdentity) :
    (idText d.vendorId ++ ":" ++ idText d.productId ++ " ").toList <+: d.text.toList := by
  simp only [UsbIdentity.text, toString, String.toList_append, List.append_assoc, List.prefix_append_right_inj]
  exact List.prefix_append _ _

/-- Every word that is accepted is two identifiers with a colon between them, and the criteria have
    these two and nothing else. Beyond the meant words a plus sign and a repeated `0x` pass, and
    without them exactly the meant words are accepted, among them what a device is shown with. -/
theorem signs_and_repeated_markers_pass (text : String) (c : UsbCriteria) :
    (parseUsb text = .ok c ↔ NamesUsb PassesForHex text.toList c) ∧
      (parseUsb text = .ok c ∧ '+' ∉ text.toList ∧ ¬ "0x0x".toList <:+: text.toList ↔
        NamesUsb IsHexLiteral text.toList c) ∧
      (∀ (vendor product : UInt16) (d : UsbIdentity), (⟨vendor, product, "", ""⟩ : UsbCriteria).admits d = true ↔
        idAdmits vendor d.vendorId = true ∧ idAdmits product d.productId = true) ∧
      ∀ d : UsbIdentity, (idText d.vendorId ++ ":" ++ idText d.productId ++ " ").toList <+: d.text.toList ∧
        parseUsb (idText d.vendorId ++ ":" ++ idText d.productId) = .ok ⟨d.vendorId, d.productId, "", ""⟩ :=
  ⟨parseUsb_eq_ok_iff, by rw [namesUsb_isHexLiteral_iff, parseUsb_eq_ok_iff], fun _ _ _ => admits_ids,
    fun d => ⟨idText_prefix_text d, parseUsb_idText d.vendorId d.productId⟩⟩

/-- Neither a signed identifier nor one with a repeated marker is meant. -/
theorem signed_id_is_read :
    parseUsb "+403:6010" = .ok ⟨0x403, 0x6010, "", ""⟩ ∧ parseUsb "0x0x403:6010" = .ok ⟨0x403, 0x6010, "", ""⟩ ∧
      ∀ c, ¬ NamesUsb IsHexLiteral "+403:6010".toList c ∧ ¬ NamesUsb IsHexLiteral "0x0x403:6010".toList c := by
  refine ⟨by decide, by decide, fun c => ⟨fun h => ?_, fun h => ?_⟩⟩
  · exact absurd (namesUsb_isHexLiteral_iff.mp h).2.1 (by decide)
  · exact absurd (namesUsb_isHexLiteral_iff.mp h).2.2 (by decide)

end Peripheral.CommandLine
