import Peripheral.Criteria.Json
import Peripheral.Proofs.Address.RoundTrip
import Peripheral.Proofs.Json.Shape
import Peripheral.Transfer.Json

/-
  Peripheral.Proofs.Json.RoundTrip — addresses, subnets, identities, criteria, transfers,
  endpoints and configurations are read back from their own JSON (`values_are_read_back`).

  Of each of them there are two things to say: its JSON is plain, so its text gives the JSON
  back, and its shape reads the value from the JSON.
-/

namespace Peripheral

open Json

variable {p : Place} {depth : Nat}

/-! ## Strings and names -/

@[simp] theorem Address.shape_toJson (a : Address) : Address.shape p a.toJson = some a := by
  rw [toJson, shape, textOf_str, ofText?_text]

@[simp] theorem Mac.shape_toJson (m : Mac) : Mac.shape p m.toJson = some m := by
  rw [toJson, shape, textOf_str, ofText?_text]

@[simp] theorem Protocol.shape_toJson (t : Protocol) : Protocol.shape p t.toJson = some t := by
  cases t <;> rfl

@[simp] theorem Verb.shape_toJson (v : Verb) : Verb.shape p v.toJson = some v := by
  cases v <;> rfl

@[simp] theorem Direction.shape_toJson (d : Direction) : Direction.shape p d.toJson = some d := by
  cases d <;> rfl

/-! ## Subnets -/

namespace Subnet

/-- The number of addresses is a 128-bit number. -/
def HasCount (s : Subnet) : Prop := s.count < 2 ^ 128

theorem shape_toJson {s : Subnet} (hs : s.HasCount) : Subnet.shape p s.toJson = some s := by
  rw [toJson, shape, open?_obj _ p (by simp)]
  have hcount : s.count < 1 <<< 128 := hs
  -- the limit of the shape is a shift; as a numeral it would not meet the lemma
  simp [Record.required, List.lookup_cons, natBelow_nat hcount, -Nat.reduceShiftLeft]

theorem isPlain_toJson {s : Subnet} (hs : s.HasCount) : IsPlain 0 s.toJson := by
  simp [toJson, Address.toJson, IsPlain, MembersPlain, depthLimit, isPlain_nat hs]

theorem hasCount_of_shape {j : Json} {s : Subnet} (h : Subnet.shape p j = some s) : s.HasCount := by
  simp only [shape, Option.bind_eq_bind, Option.bind_eq_some_iff] at h
  obtain ⟨r, -, _, -, _, -, _, -, _, -, n, hn, hs⟩ := h
  cases hs
  obtain ⟨j, -, hj⟩ := Option.bind_eq_some_iff.mp hn
  unfold Shape.natBelow at hj
  split at hj
  · split at hj
    · cases hj
      assumption
    · cases hj
  · cases hj

end Subnet

/-! ## Criteria -/

theorem UsbCriteria.shape_members (c : UsbCriteria) : UsbCriteria.shape p (.obj c.members) = some c := by
  rw [shape, open?_obj _ p (by simp [members])]
  simp [Record.defaulted, members, List.lookup_cons]

theorem UsbCriteria.membersPlain (c : UsbCriteria) : MembersPlain depth c.members := by
  simp [members, MembersPlain, IsPlain]

theorem HostCriteria.shape_members (c : HostCriteria) : HostCriteria.shape p (.obj c.members) = some c := by
  rw [shape, open?_obj _ p (by simp [members])]
  simp [Record.defaulted, members, List.lookup_cons]

theorem HostCriteria.membersPlain (c : HostCriteria) : MembersPlain depth c.members := by
  simp [members, Protocol.toJson, MembersPlain, IsPlain]

theorem Criteria.shape_toJson (c : Criteria) : Criteria.shape p c.toJson = some c := by
  cases c with
  | usb c =>
    rw [toJson, shape, tagged?_obj "usb" (by simp [UsbCriteria.members])
      (by simp [UsbCriteria.members, membersReadable, isReadable, nat])]
    simp [UsbCriteria.shape_members]
  | ethernet c =>
    rw [toJson, shape, tagged?_obj "ethernet" (by simp [HostCriteria.members])
      (by simp [HostCriteria.members, Protocol.toJson, membersReadable, isReadable, nat])]
    simp [HostCriteria.shape_members]
  | http c =>
    rw [toJson, shape, tagged?_obj "http" (by simp [HostCriteria.members])
      (by simp [HostCriteria.members, Protocol.toJson, membersReadable, isReadable, nat])]
    simp [HostCriteria.shape_members]

theorem Criteria.isPlain_toJson (hdepth : depth < depthLimit) (c : Criteria) : IsPlain depth c.toJson := by
  cases c with
  | usb c => exact ⟨hdepth, trivial, c.membersPlain⟩
  | ethernet c => exact ⟨hdepth, trivial, c.membersPlain⟩
  | http c => exact ⟨hdepth, trivial, c.membersPlain⟩

theorem Criteria.itemsPlain (l : List Criteria) : ItemsPlain 1 (l.map Criteria.toJson) := by
  induction l with
  | nil => trivial
  | cons c l ih => exact ⟨c.isPlain_toJson (by decide), ih⟩

/-! ## Identities -/

theorem UsbIdentity.shape_members (d : UsbIdentity) : UsbIdentity.shape p (.obj d.members) = some d := by
  rw [shape, open?_obj _ p (by simp [members])]
  simp [Record.required, members, List.lookup_cons]

theorem UsbIdentity.membersPlain (d : UsbIdentity) : MembersPlain depth d.members := by
  simp [members, MembersPlain, IsPlain]

theorem HostIdentity.shape_members (h : HostIdentity) : HostIdentity.shape p (.obj h.members) = some h := by
  rw [shape, open?_obj _ p (by simp [members])]
  simp [Record.required, members, List.lookup_cons]

theorem HostIdentity.membersPlain (h : HostIdentity) : MembersPlain depth h.members := by
  simp [members, Address.toJson, Mac.toJson, Protocol.toJson, MembersPlain, IsPlain]

theorem Identity.shape_toJson (i : Identity) : Identity.shape p i.toJson = some i := by
  cases i with
  | usb d =>
    rw [toJson, shape, tagged?_obj "usb" (by simp [UsbIdentity.members])
      (by simp [UsbIdentity.members, membersReadable, isReadable, nat])]
    simp [UsbIdentity.shape_members]
  | ethernet h =>
    rw [toJson, shape, tagged?_obj "ethernet" (by simp [HostIdentity.members])
      (by simp [HostIdentity.members, Address.toJson, Mac.toJson, Protocol.toJson, membersReadable, isReadable, nat])]
    simp [HostIdentity.shape_members]

theorem Identity.isPlain_toJson (i : Identity) : IsPlain 0 i.toJson := by
  cases i with
  | usb d => exact ⟨by decide, trivial, d.membersPlain⟩
  | ethernet h => exact ⟨by decide, trivial, h.membersPlain⟩

/-! ## Transfers and endpoints -/

theorem Transfer.tagged?_toJson (t : Transfer) : tagged? "kind" t.toJson = some (t.kind, .obj t.members) := by
  have htag : "kind" ∉ t.members.map Prod.fst := by
    cases t <;> simp [members]
  have hreadable : membersReadable t.members = true := by
    cases t <;> simp [members, Verb.toJson, membersReadable, isReadable, nat]
  exact tagged?_obj t.kind htag hreadable

theorem Transfer.shape_toJson (t : Transfer) : Transfer.shape p t.toJson = some t := by
  rw [shape, t.tagged?_toJson]
  cases t with
  | bulk e => simp [kind, members, open?_obj, Record.required]
  | control t r v i => simp [kind, members, open?_obj, Record.required, List.lookup_cons]
  | interrupt e => simp [kind, members, open?_obj, Record.required]
  | http v path => simp [kind, members, open?_obj, Record.required, List.lookup_cons]
  | stream => simp [kind, members, open?_obj]

theorem Transfer.isPlain_toJson (t : Transfer) : IsPlain 0 t.toJson := by
  cases t <;> simp [toJson, members, Verb.toJson, MembersPlain, IsPlain, depthLimit]

theorem Endpoint.shape_toJson (e : Endpoint) : Endpoint.shape p e.toJson = some e := by
  rw [toJson, shape, open?_obj _ p (by simp)]
  simp [Record.required, List.lookup_cons]

theorem Endpoint.isPlain_toJson (e : Endpoint) : IsPlain 0 e.toJson := by
  simp [toJson, Direction.toJson, MembersPlain, IsPlain, depthLimit]

/-! ## Configurations -/

theorem UsbConfiguration.shape_toJson (c : UsbConfiguration) : UsbConfiguration.shape p c.toJson = some c := by
  have hinterface : Shape.optional Shape.uint8 p (Json.ofOption (fun i => nat i.toNat) c.interface) =
      some c.interface :=
    optional_ofOption uint8_nat (by simp [nat]) c.interface
  rw [toJson, shape, open?_obj _ p (by simp)]
  simp [Record.defaulted, List.lookup_cons, hinterface]

theorem UsbConfiguration.isPlain_toJson (c : UsbConfiguration) : IsPlain 0 c.toJson := by
  rcases c with ⟨timeoutMs, _ | interface⟩ <;>
    simp [toJson, Json.ofOption, MembersPlain, IsPlain, depthLimit]

theorem FtdiConfiguration.shape_toJson (c : FtdiConfiguration) : FtdiConfiguration.shape p c.toJson = some c := by
  rw [toJson, shape, open?_obj _ p (by simp)]
  simp [Record.defaulted, List.lookup_cons]

theorem FtdiConfiguration.isPlain_toJson (c : FtdiConfiguration) : IsPlain 0 c.toJson := by
  simp [toJson, MembersPlain, IsPlain, depthLimit]

theorem EthernetConfiguration.shape_toJson (c : EthernetConfiguration) :
    EthernetConfiguration.shape p c.toJson = some c := by
  rw [toJson, shape, open?_obj _ p (by simp)]
  simp [Record.defaulted]

theorem EthernetConfiguration.isPlain_toJson (c : EthernetConfiguration) : IsPlain 0 c.toJson := by
  simp [toJson, MembersPlain, IsPlain, depthLimit]

theorem HttpConfiguration.shape_toJson (c : HttpConfiguration) : HttpConfiguration.shape p c.toJson = some c := by
  rw [toJson, shape, open?_obj _ p (by simp)]
  simp [Record.defaulted]

theorem HttpConfiguration.isPlain_toJson (c : HttpConfiguration) : IsPlain 0 c.toJson := by
  simp [toJson, MembersPlain, IsPlain, depthLimit]

theorem ScanLimits.shape_toJson (l : ScanLimits) : ScanLimits.shape p l.toJson = some l := by
  rw [toJson, shape, open?_obj _ p (by simp)]
  simp [Record.defaulted, List.lookup_cons]

theorem ScanLimits.isPlain_toJson (l : ScanLimits) : IsPlain 0 l.toJson := by
  simp [toJson, MembersPlain, IsPlain, depthLimit]

/-! ## Texts -/

theorem Address.readsBack : ReadsBack (fun _ => True) Address.toJson Address.shape :=
  .of_always (fun _ => trivial) fun _ => shape_toJson _

theorem Mac.readsBack : ReadsBack (fun _ => True) Mac.toJson Mac.shape :=
  .of_always (fun _ => trivial) fun _ => shape_toJson _

/-- A list of criteria is the array of them. -/
theorem Criteria.readsBack_list :
    ReadsBack (fun _ => True) (fun l : List Criteria => .arr (l.map Criteria.toJson)) (Shape.listOf Criteria.shape) :=
  .of_always (fun l => ⟨by decide, itemsPlain l⟩) fun l => listOf_map (fun c => c.shape_toJson) l

theorem Subnet.readsBack : ReadsBack Subnet.HasCount Subnet.toJson Subnet.shape :=
  .of_plain (fun _ => isPlain_toJson) (fun _ => shape_toJson) fun _ _ => hasCount_of_shape

/-- Of all that is exchanged as JSON, every value is read back from its own text. -/
theorem values_are_read_back :
    ReadsBack (fun _ => True) Address.toJson Address.shape ∧
    ReadsBack (fun _ => True) Mac.toJson Mac.shape ∧
    ReadsBack (fun _ => True) UsbCriteria.toJson UsbCriteria.shape ∧
    ReadsBack (fun _ => True) HostCriteria.toJson HostCriteria.shape ∧
    ReadsBack (fun _ => True) Criteria.toJson Criteria.shape ∧
    ReadsBack (fun _ => True) (fun l : List Criteria => .arr (l.map Criteria.toJson))
      (Shape.listOf Criteria.shape) ∧
    ReadsBack (fun _ => True) UsbIdentity.toJson UsbIdentity.shape ∧
    ReadsBack (fun _ => True) HostIdentity.toJson HostIdentity.shape ∧
    ReadsBack (fun _ => True) Identity.toJson Identity.shape ∧
    ReadsBack (fun _ => True) Transfer.toJson Transfer.shape ∧
    ReadsBack (fun _ => True) Endpoint.toJson Endpoint.shape ∧
    ReadsBack Subnet.HasCount Subnet.toJson Subnet.shape ∧
    ReadsBack (fun _ => True) UsbConfiguration.toJson UsbConfiguration.shape ∧
    ReadsBack (fun _ => True) FtdiConfiguration.toJson FtdiConfiguration.shape ∧
    ReadsBack (fun _ => True) EthernetConfiguration.toJson EthernetConfiguration.shape ∧
    ReadsBack (fun _ => True) HttpConfiguration.toJson HttpConfiguration.shape ∧
    ReadsBack (fun _ => True) ScanLimits.toJson ScanLimits.shape :=
  ⟨Address.readsBack,
    Mac.readsBack,
    .of_always (fun c => ⟨by decide, c.membersPlain⟩) fun c => c.shape_members,
    .of_always (fun c => ⟨by decide, c.membersPlain⟩) fun c => c.shape_members,
    .of_always (Criteria.isPlain_toJson (by decide)) fun c => c.shape_toJson,
    Criteria.readsBack_list,
    .of_always (fun d => ⟨by decide, d.membersPlain⟩) fun d => d.shape_members,
    .of_always (fun h => ⟨by decide, h.membersPlain⟩) fun h => h.shape_members,
    .of_always Identity.isPlain_toJson fun i => i.shape_toJson,
    .of_always Transfer.isPlain_toJson fun t => t.shape_toJson,
    .of_always Endpoint.isPlain_toJson fun e => e.shape_toJson,
    Subnet.readsBack,
    .of_always UsbConfiguration.isPlain_toJson fun c => c.shape_toJson,
    .of_always FtdiConfiguration.isPlain_toJson fun c => c.shape_toJson,
    .of_always EthernetConfiguration.isPlain_toJson fun c => c.shape_toJson,
    .of_always HttpConfiguration.isPlain_toJson fun c => c.shape_toJson,
    .of_always ScanLimits.isPlain_toJson fun l => l.shape_toJson⟩

end Peripheral
