import Peripheral.Proofs.Criteria

/-
  Peripheral.Proofs.Criteria.Copies — criteria that are copied from an identity.

  A copy takes over the fields that criteria look at (`Identity.compared`). It admits the
  identity that it was copied from, whatever its texts are: a text is one of those that it
  stands for as a pattern. So does what is wider than the copy (`Criteria.Widens.admits`): some
  fields are wildcards instead, and the address may be spelled in another way, since it is
  compared by value.

  If no field of the copy acts as a wildcard (`Identity.IsExact`), it tells every difference:
  texts that stand for themselves only, and addresses and hardware addresses that are read
  back from their texts.
-/

namespace Peripheral

/-! ## Fields -/

/-- The criterion stands for every text. -/
def IsAnyText (criterion : String) : Prop := criterion = "" ∨ criterion = "*"

/-- The criterion stands for every address. -/
def IsAnyAddress (criterion : String) : Prop := IsAnyText (Text.strip criterion) ∨ Text.strip criterion = anyAddress

/-- Two spellings of one address. -/
def IsRespelled (s t : String) : Prop := ∃ a, Address.ofText? s = some a ∧ Address.ofText? t = some a

section Fields

variable {criterion wide value : String} {a b : Address}

theorem admits_of_isAnyText (h : IsAnyText criterion) : Pattern.admits criterion value = true := by
  rcases h with rfl | rfl
  · exact Pattern.admits_iff.mpr (.inl rfl)
  · exact Pattern.admits_iff.mpr (.inr (Pattern.denotes_star _))

theorem addressAdmits_of_isAnyAddress (h : IsAnyAddress criterion) : addressAdmits criterion a = true := by
  rcases h with hany | hany
  · have hnone : Address.ofText? criterion = none := by
      rw [← Address.ofText?_strip]
      rcases hany with h | h <;> rw [h] <;> decide
    exact addressAdmits_iff.mpr (.inr (.inr ⟨hnone, admits_of_isAnyText hany⟩))
  · exact addressAdmits_iff.mpr (.inl hany)

/-- Of a criterion that is an address only the address counts. -/
theorem addressAdmits_iff_of_ofText? (h : Address.ofText? criterion = some a) :
    addressAdmits criterion b = true ↔ a = .unspecified .v4 ∨ a = b := by
  rw [addressAdmits_iff, strip_eq_anyAddress_iff, h]
  simp

@[simp] theorem idAdmits_self (id : UInt16) : idAdmits id id = true := idAdmits_iff.mpr (.inr rfl)

@[simp] theorem addressAdmits_text (a : Address) : addressAdmits a.text a = true :=
  (addressAdmits_iff_of_ofText? a.ofText?_text).mpr (.inr rfl)

theorem idAdmits_iff_of_ne_zero {id value : UInt16} (h : id ≠ 0) : idAdmits id value = true ↔ id = value :=
  idAdmits_iff.trans (or_iff_right h)

theorem addressAdmits_text_iff (h : a ≠ .unspecified .v4) : addressAdmits a.text b = true ↔ a = b :=
  (addressAdmits_iff_of_ofText? a.ofText?_text).trans (or_iff_right h)

theorem Mac.isLiteral_text (m : Mac) : Pattern.IsLiteral m.text := by
  constructor
  · intro h
    have hread := m.ofText?_text
    rw [h] at hread
    cases hread
  · intro c hc
    have hwritten := isWritten_of_mem_text hc
    constructor <;> rintro rfl <;> exact absurd hwritten (by decide)

theorem Mac.admits_text_iff {m n : Mac} : Pattern.admits m.text n.text = true ↔ m = n :=
  m.isLiteral_text.admits_iff.trans text_injective.eq_iff

theorem idAdmits_widened {criterion wide value : UInt16} (hw : wide = criterion ∨ wide = 0)
    (h : idAdmits criterion value = true) : idAdmits wide value = true := by
  rcases hw with rfl | rfl
  · exact h
  · rfl

theorem admits_widened (hw : wide = criterion ∨ IsAnyText wide) (h : Pattern.admits criterion value = true) :
    Pattern.admits wide value = true := by
  rcases hw with rfl | hany
  · exact h
  · exact admits_of_isAnyText hany

theorem addressAdmits_widened (hw : wide = criterion ∨ IsRespelled wide criterion ∨ IsAnyAddress wide)
    (h : addressAdmits criterion a = true) : addressAdmits wide a = true := by
  rcases hw with rfl | ⟨b, hwide, hcriterion⟩ | hany
  · exact h
  · rw [addressAdmits_iff_of_ofText? hcriterion] at h
    exact (addressAdmits_iff_of_ofText? hwide).mpr h
  · exact addressAdmits_of_isAnyAddress hany

end Fields

/-! ## Wider criteria -/

/-- Every field is the same or a wildcard. -/
structure UsbCriteria.Widens (w c : UsbCriteria) : Prop where
  vendorId : w.vendorId = c.vendorId ∨ w.vendorId = 0
  productId : w.productId = c.productId ∨ w.productId = 0
  serialNumber : w.serialNumber = c.serialNumber ∨ IsAnyText w.serialNumber
  port : w.port = c.port ∨ IsAnyText w.port

/-- Every field is the same or a wildcard, or else another spelling of the same address. The
    protocol has no wildcard. -/
structure HostCriteria.Widens (w c : HostCriteria) : Prop where
  name : w.name = c.name ∨ IsAnyText w.name
  ip : w.ip = c.ip ∨ IsRespelled w.ip c.ip ∨ IsAnyAddress w.ip
  mac : w.mac = c.mac ∨ IsAnyText w.mac
  port : w.port = c.port ∨ w.port = 0
  protocol : w.protocol = c.protocol

inductive Criteria.Widens : Criteria → Criteria → Prop
  | usb {w c : UsbCriteria} : w.Widens c → Widens (.usb w) (.usb c)
  | ethernet {w c : HostCriteria} : w.Widens c → Widens (.ethernet w) (.ethernet c)
  | http {w c : HostCriteria} : w.Widens c → Widens (.http w) (.http c)

theorem UsbCriteria.Widens.admits {w c : UsbCriteria} (hw : w.Widens c) {d : UsbIdentity} (h : c.admits d = true) :
    w.admits d = true := by
  obtain ⟨hvendor, hproduct, hserial, hport⟩ := admits_iff.mp h
  exact admits_iff.mpr ⟨idAdmits_widened hw.vendorId hvendor, idAdmits_widened hw.productId hproduct,
    admits_widened hw.serialNumber hserial, admits_widened hw.port hport⟩

theorem HostCriteria.Widens.admits {w c : HostCriteria} (hw : w.Widens c) {x : HostIdentity} (h : c.admits x = true) :
    w.admits x = true := by
  obtain ⟨hname, hip, hmac, hport, hprotocol⟩ := admits_iff.mp h
  exact admits_iff.mpr ⟨admits_widened hw.name hname, addressAdmits_widened hw.ip hip, admits_widened hw.mac hmac,
    idAdmits_widened hw.port hport, hw.protocol.trans hprotocol⟩

/-- Wider criteria lose no identity. -/
theorem Criteria.Widens.admits {w c : Criteria} (hw : w.Widens c) {x : Identity} (h : c.admits x = true) :
    w.admits x = true := by
  cases hw with
  | usb hw =>
    cases x with
    | usb d => exact UsbCriteria.Widens.admits hw h
    | ethernet x => cases h
  | ethernet hw | http hw =>
    cases x with
    | usb d => cases h
    | ethernet x => exact HostCriteria.Widens.admits hw h

/-! ## Copies -/

/-- The compared fields of a device as criteria. -/
def UsbIdentity.criteria (d : UsbIdentity) : UsbCriteria where
  vendorId := d.vendorId
  productId := d.productId
  serialNumber := d.serialNumber
  port := d.port

/-- The compared fields of a host as criteria. -/
def HostIdentity.criteria (h : HostIdentity) : HostCriteria where
  name := h.hostname
  ip := h.ip.text
  mac := h.mac.text
  port := h.port
  protocol := h.protocol

/-- Criteria that are the compared fields of an identity. A host is asked for in two ways. -/
inductive IsCopy : Criteria → Identity → Prop
  | usb (d : UsbIdentity) : IsCopy (.usb d.criteria) (.usb d)
  | ethernet (h : HostIdentity) : IsCopy (.ethernet h.criteria) (.ethernet h)
  | http (h : HostIdentity) : IsCopy (.http h.criteria) (.ethernet h)

/-- What criteria look at. -/
inductive Compared
  | usb (vendorId productId : UInt16) (serialNumber port : String)
  | host (hostname : String) (ip : Address) (mac : Mac) (port : UInt16) (protocol : Protocol)
deriving DecidableEq, Repr

def Identity.compared : Identity → Compared
  | usb d => .usb d.vendorId d.productId d.serialNumber d.port
  | ethernet h => .host h.hostname h.ip h.mac h.port h.protocol

/-- No compared field reads as a wildcard or a pattern. -/
def Identity.IsExact : Identity → Prop
  | usb d => d.vendorId ≠ 0 ∧ d.productId ≠ 0 ∧ Pattern.IsLiteral d.serialNumber ∧ Pattern.IsLiteral d.port
  | ethernet h => Pattern.IsLiteral h.hostname ∧ h.ip ≠ .unspecified .v4 ∧ h.port ≠ 0

theorem UsbIdentity.admits_criteria (d : UsbIdentity) : d.criteria.admits d = true := by
  simp [UsbCriteria.admits_iff, criteria]

theorem HostIdentity.admits_criteria (h : HostIdentity) : h.criteria.admits h = true := by
  simp [HostCriteria.admits_iff, criteria]

theorem IsCopy.admits {c : Criteria} {x : Identity} (h : IsCopy c x) : c.admits x = true := by
  cases h with
  | usb d => exact d.admits_criteria
  | ethernet x | http x => exact x.admits_criteria

theorem UsbIdentity.admits_criteria_iff {d e : UsbIdentity} (hd : (Identity.usb d).IsExact) :
    d.criteria.admits e = true ↔ (Identity.usb e).compared = (Identity.usb d).compared := by
  obtain ⟨hvendor, hproduct, hserial, hport⟩ := hd
  rw [UsbCriteria.admits_iff, criteria, idAdmits_iff_of_ne_zero hvendor, idAdmits_iff_of_ne_zero hproduct,
    hserial.admits_iff, hport.admits_iff, Identity.compared, Identity.compared, Compared.usb.injEq]
  simp only [eq_comm]

theorem HostIdentity.admits_criteria_iff {x y : HostIdentity} (hx : (Identity.ethernet x).IsExact) :
    x.criteria.admits y = true ↔ (Identity.ethernet y).compared = (Identity.ethernet x).compared := by
  obtain ⟨hname, hip, hport⟩ := hx
  rw [HostCriteria.admits_iff, criteria, hname.admits_iff, addressAdmits_text_iff hip, Mac.admits_text_iff,
    idAdmits_iff_of_ne_zero hport, Identity.compared, Identity.compared, Compared.host.injEq]
  simp only [eq_comm]

/-- A copy admits its identity, as all wider criteria do. If no field is a wildcard it admits no
    identity that differs in a compared field or is of the other transport. -/
theorem copies_admit_their_identity {c : Criteria} {x : Identity} (h : IsCopy c x) :
    c.admits x = true ∧ (∀ w : Criteria, w.Widens c → w.admits x = true) ∧
      (x.IsExact → ∀ y, c.admits y = true ↔ y.compared = x.compared) := by
  refine ⟨h.admits, fun w hw => hw.admits h.admits, fun hx y => ?_⟩
  cases h with
  | usb d =>
    cases y with
    | usb e => exact UsbIdentity.admits_criteria_iff hx
    | ethernet y => exact iff_of_false nofun nofun
  | ethernet x | http x =>
    cases y with
    | usb e => exact iff_of_false nofun nofun
    | ethernet y => exact HostIdentity.admits_criteria_iff hx

/-- A host with a name that reads as a pattern, and a device that has none. -/
theorem copies_of_host_and_device :
    let host : HostIdentity := {
      hostname := "plc-?*", ip := .ofSegments .v6 [0xfe80, 0, 0, 0, 0, 0, 0, 1],
      mac := .ofNats [0x00, 0x1b, 0x44, 0x11, 0x3a, 0xb7], port := 502, protocol := .tcp }
    let device : UsbIdentity := {
      name := "STM32 Virtual ComPort", manufacturer := "STMicroelectronics", serialNumber := "205F31A54E42",
      port := "1:4:2", vendorId := 0x0483, productId := 0x5740 }
    (Criteria.http { host.criteria with ip := " FE80::0:1", mac := "*" }).admits (.ethernet host) = true ∧
      (Identity.usb device).IsExact ∧
      ∀ y, (Criteria.usb device.criteria).admits y = true ↔ y.compared = (Identity.usb device).compared := by
  intro host device
  have hwide : Criteria.Widens (.http { host.criteria with ip := " FE80::0:1", mac := "*" }) (.http host.criteria) :=
    .http ⟨.inl rfl, .inr (.inl ⟨host.ip, by decide, host.ip.ofText?_text⟩), .inr (.inr rfl), .inl rfl, rfl⟩
  have hexact : (Identity.usb device).IsExact := ⟨by decide, by decide, by decide, by decide⟩
  exact ⟨(copies_admit_their_identity (.http host)).2.1 _ hwide, hexact,
    (copies_admit_their_identity (.usb device)).2.2 hexact⟩

end Peripheral
