import Peripheral.Proofs.Ftdi.Packet
import Peripheral.Proofs.Ftdi.Session

/-
  Peripheral.Proofs.Ftdi.Stream — the bytes that bulk reads one after the other hand over.

  A read asks for whole packets and hands over the front of what they carry, as much as its
  buffer takes (`perform_readBulk`). Nothing is kept for the next read: what did not fit is
  gone (`surplus_is_dropped`). So a run of reads hands over all that the chip sent if each
  buffer takes what its own transfer carried, and only then; buffers that whole packets fill
  always do (`length_payload_le_room`).
-/

namespace Peripheral.Ftdi

open Usb (Bus Handle)

/-! ## One transfer -/

/-- One bulk read and the answer to its native read. -/
structure Exchange where
  /-- The endpoint that the caller names. -/
  endpoint : UInt8
  /-- The length of the caller's buffer. -/
  room : Nat
  /-- The packets of the chip. -/
  answer : Except Usb.Error (List Packet)

namespace Exchange

/-- The bytes that the native read returns. -/
def raw (x : Exchange) : Except Usb.Error (List UInt8) := x.answer.map wire

/-- What the chip delivered. -/
def payload (x : Exchange) : List UInt8 :=
  match x.answer with
  | .ok packets => carried packets
  | .error _ => []

/-- The front of it that has room. -/
def handed (x : Exchange) : Except Failure (List UInt8) :=
  match x.answer with
  | .ok packets => .ok ((carried packets).take x.room)
  | .error e => .error (.error e.link)

end Exchange

/-- The bytes that reach the caller. -/
def bytesOf : Except Failure (List UInt8) → List UInt8
  | .ok bytes => bytes
  | .error _ => []

theorem Exchange.bytesOf_handed (x : Exchange) : bytesOf x.handed = x.payload.take x.room := by
  unfold handed payload
  cases x.answer with
  | ok packets => rfl
  | error e => exact List.take_nil.symm

/-- Bulk reads one after the other: how each ends, and the session and journal after them. -/
def readAll (bus : Bus) : List (UInt8 × Nat) → Session → Journal →
    List (Except Failure (List UInt8)) × Session × Journal
  | [], s, j => ([], s, j)
  | (e, len) :: rest, s, j =>
    let (r, s, j) := (Session.read bus (.bulk e) len).perform s j
    let (rs, s, j) := readAll bus rest s j
    (r :: rs, s, j)

/-- The native reads of a session with the handle `h` return these answers, one after the other. -/
def Answered (bus : Bus) (s : Session) (h : Handle) : Journal → List Exchange → Prop
  | _, [] => True
  | j, x :: xs =>
    (∃ address, s.configuration.inEndpoint = .ok address ∧
      ((bus.read h (.bulk address) (rawSize x.room s.packetSize) s.configuration.timeoutMs).run j).1 = x.raw) ∧
    Answered bus s h ((Session.read bus (.bulk x.endpoint) x.room).perform s j).2.2 xs

variable {bus : Bus} {s : Session} {h : Handle} {j : Journal} {x : Exchange} {xs : List Exchange}

theorem readyFor_bulk (hs : s.handle = some h) (e : UInt8) {len : Nat} (hlen : 0 < len) :
    s.readyFor (.bulk e) len = .ok h := by
  unfold Session.readyFor checkBuffer
  rw [if_neg (Nat.ne_of_gt hlen), hs]
  rfl

/-- A bulk read hands over what there is room for and leaves the session as it was. -/
theorem perform_readBulk (hs : s.handle = some h) (hsize : statusLength < s.packetSize) (hroom : 0 < x.room)
    (hpackets : ∀ packets, x.answer = .ok packets → AreSized s.packetSize packets) {address : UInt8}
    (hend : s.configuration.inEndpoint = .ok address)
    (hraw : ((bus.read h (.bulk address) (rawSize x.room s.packetSize) s.configuration.timeoutMs).run j).1 = x.raw) :
    ∃ k, (Session.read bus (.bulk x.endpoint) x.room).perform s j = (x.handed, s, k) := by
  unfold Session.read Session.readBulk
  rw [Op.perform_eq, Op.run_bind, Op.run_session]
  simp only
  rw [Op.run_bind, Op.run_require, readyFor_bulk hs x.endpoint hroom]
  simp only [Op.mapError_ok]
  rw [Op.run_bind, Op.run_bind, Op.run_within, hend]
  simp only [Op.mapError_ok]
  rw [Op.run_bind, Op.run_act, hraw]
  unfold Exchange.raw Exchange.handed
  cases hanswer : x.answer with
  | error e => exact ⟨_, rfl⟩
  | ok packets =>
    have hpayload := payload_wire hsize (hpackets packets hanswer)
    have hstripped := stripped_eq_take s.packetSize (wire packets) x.room
    rw [hpayload] at hstripped
    simp only
    rw [← hstripped]
    exact ⟨_, rfl⟩

/-! ## A run of reads -/

theorem readAll_eq (hs : s.handle = some h) (hsize : statusLength < s.packetSize) (hroom : ∀ x ∈ xs, 0 < x.room)
    (hpackets : ∀ x ∈ xs, ∀ packets, x.answer = .ok packets → AreSized s.packetSize packets)
    (hanswers : Answered bus s h j xs) :
    ∃ k, readAll bus (xs.map fun x => (x.endpoint, x.room)) s j = (xs.map Exchange.handed, s, k) := by
  induction xs generalizing j with
  | nil => exact ⟨j, rfl⟩
  | cons x xs ih =>
    obtain ⟨⟨address, hend, hraw⟩, hrest⟩ := hanswers
    obtain ⟨k, hread⟩ := perform_readBulk hs hsize (hroom x List.mem_cons_self) (hpackets x List.mem_cons_self) hend hraw
    rw [hread] at hrest
    obtain ⟨l, hall⟩ := ih (fun y hy => hroom y (List.mem_cons_of_mem x hy))
      (fun y hy => hpackets y (List.mem_cons_of_mem x hy)) hrest
    refine ⟨l, ?_⟩
    rw [List.map_cons, readAll, hread]
    simp only
    rw [hall, List.map_cons]

/-- What reaches the caller is the front of each payload. -/
theorem flatMap_handed (xs : List Exchange) :
    (xs.map Exchange.handed).flatMap bytesOf = xs.flatMap fun x => x.payload.take x.room := by
  rw [List.flatMap_map]
  exact List.flatMap_congr fun x _ => x.bytesOf_handed

/-- Fronts of lists make up the lists only if they are the whole of each. -/
theorem flatMap_take_eq_iff {α β : Type} (f : α → List β) (n : α → Nat) (l : List α) :
    (l.flatMap fun a => (f a).take (n a)) = l.flatMap f ↔ ∀ a ∈ l, (f a).length ≤ n a := by
  have hle : ∀ l : List α, (l.flatMap fun a => (f a).take (n a)).length ≤ (l.flatMap f).length := by
    intro l
    induction l with
    | nil => exact Nat.le_refl _
    | cons a l ih =>
      rw [List.flatMap_cons, List.flatMap_cons, List.length_append, List.length_append, List.length_take]
      omega
  constructor
  · intro heq
    induction l with
    | nil => nofun
    | cons a l ih =>
      have hlen := congrArg List.length heq
      have hrest := hle l
      rw [List.flatMap_cons, List.flatMap_cons] at heq hlen
      rw [List.length_append, List.length_append, List.length_take] at hlen
      have ha : (f a).length ≤ n a := by omega
      rw [List.take_of_length_le ha] at heq
      intro b hb
      rcases List.mem_cons.mp hb with rfl | hb
      · exact ha
      · exact ih (List.append_cancel_left heq) b hb
  · intro h
    exact List.flatMap_congr fun a ha => List.take_of_length_le (h a ha)

/-- Whole packets asked for a number of bytes that fills them carry no more than that number. -/
theorem length_payload_le_room {address : UInt8} (hsize : statusLength < s.packetSize)
    (hpackets : ∀ packets, x.answer = .ok packets → AreSized s.packetSize packets)
    (hraw : ((bus.read h (.bulk address) (rawSize x.room s.packetSize) s.configuration.timeoutMs).run j).1 = x.raw)
    (hfill : s.packetSize - statusLength ∣ x.room) : x.payload.length ≤ x.room := by
  unfold Exchange.raw at hraw
  unfold Exchange.payload
  cases hanswer : x.answer with
  | error e => exact Nat.zero_le _
  | ok packets =>
    rw [hanswer] at hraw
    have hlen := bus.length_le_of_read h j hraw
    obtain ⟨n, hn⟩ := hfill
    rw [hn, rawSize_of_filled hsize] at hlen
    have hcarried := length_carried_le hsize (hpackets packets hanswer) hlen
    rw [hn, Nat.mul_comm]
    exact hcarried

theorem Answered.exists_read (hanswers : Answered bus s h j xs) (hx : x ∈ xs) : ∃ address k,
    ((bus.read h (.bulk address) (rawSize x.room s.packetSize) s.configuration.timeoutMs).run k).1 = x.raw := by
  induction xs generalizing j with
  | nil => cases hx
  | cons y ys ih =>
    obtain ⟨⟨address, -, hraw⟩, hrest⟩ := hanswers
    rcases List.mem_cons.mp hx with rfl | hx
    · exact ⟨address, j, hraw⟩
    · exact ih hrest hx

/-- Whatever the chip sends and whatever the lengths of the buffers: each read hands over the front of what its own
    transfer carried, as much as its buffer takes, and no status byte. The run hands over all that the chip
    sent if and only if each buffer takes what its transfer carried, as buffers do that whole packets fill. -/
theorem reads_hand_over_what_fits (hs : s.handle = some h) (hsize : statusLength < s.packetSize)
    (hroom : ∀ x ∈ xs, 0 < x.room)
    (hpackets : ∀ x ∈ xs, ∀ packets, x.answer = .ok packets → AreSized s.packetSize packets)
    (hanswers : Answered bus s h j xs) :
    ∃ results k, readAll bus (xs.map fun x => (x.endpoint, x.room)) s j = (results, s, k) ∧
      results = xs.map Exchange.handed ∧
      results.flatMap bytesOf = (xs.flatMap fun x => x.payload.take x.room) ∧
      (results.flatMap bytesOf = xs.flatMap Exchange.payload ↔ ∀ x ∈ xs, x.payload.length ≤ x.room) ∧
      ((∀ x ∈ xs, s.packetSize - statusLength ∣ x.room) → results.flatMap bytesOf = xs.flatMap Exchange.payload) := by
  obtain ⟨k, hall⟩ := readAll_eq hs hsize hroom hpackets hanswers
  have hhanded := flatMap_handed xs
  have hiff := flatMap_take_eq_iff Exchange.payload Exchange.room xs
  rw [← hhanded] at hiff
  refine ⟨_, k, hall, rfl, hhanded, hiff, ?_⟩
  intro hfill
  apply hiff.mpr
  intro x hx
  obtain ⟨address, k, hraw⟩ := hanswers.exists_read hx
  exact length_payload_le_room hsize (hpackets x hx) hraw (hfill x hx)

/-- A chip that sends three bytes in answer to the first read after it was set up, and none later. -/
def threeBytes : Bus where
  devices := [{
    vendorId := Usb.ftdiVendor, productId := 0x6010, descriptorFailure := none, ports := .ok [1], config := .ok [],
    manufacturer := none, name := none, serialNumber := none, opens := fun _ => none, autoDetach := fun _ => none,
    claim := fun _ => none, release := fun _ => none,
    transfers := fun n => if n = 2 then { data := [1, 0x60, 97, 98, 99] } else { data := [1, 0x60] } }]

def threeBytesIdentity : UsbIdentity := ⟨"", "", "", "1", Usb.ftdiVendor, 0x6010⟩

/-- The session that opening it gives. -/
def threeBytesSession : Session := { identity := threeBytesIdentity, handle := some ⟨0, [0]⟩ }

/-- Two reads of it, the first with room for `room` bytes. -/
def twoReads (room : Nat) : List Exchange :=
  [⟨0x81, room, .ok [⟨1, 0x60, [97, 98, 99]⟩]⟩, ⟨0x81, 2, .ok [⟨1, 0x60, []⟩]⟩]

theorem areSized_twoReads {room : Nat} : ∀ x ∈ twoReads room, ∀ packets, x.answer = .ok packets → AreSized 64 packets := by
  intro x hx packets hanswer
  simp only [twoReads, List.mem_cons, List.not_mem_nil, or_false] at hx
  rcases hx with rfl | rfl
  · cases hanswer
    exact ⟨nofun, by simp [statusLength]⟩
  · cases hanswer
    exact ⟨nofun, by simp [statusLength]⟩

theorem answered_twoReads {room : Nat} (hroom : room = 1 ∨ room = 2) : ∃ j,
    (Session.openSession threeBytes).perform { identity := threeBytesIdentity } {} = (.ok (), threeBytesSession, j) ∧
      Answered threeBytes threeBytesSession ⟨0, [0]⟩ j (twoReads room) := by
  refine ⟨_, rfl, ?_⟩
  rcases hroom with rfl | rfl
  · exact ⟨⟨_, rfl, rfl⟩, ⟨_, rfl, rfl⟩, trivial⟩
  · exact ⟨⟨_, rfl, rfl⟩, ⟨_, rfl, rfl⟩, trivial⟩

/-- Read with room for two bytes and then again, the chip is heard to send two. -/
theorem two_of_three_bytes : ∃ j k,
    (Session.openSession threeBytes).perform { identity := threeBytesIdentity } {} = (.ok (), threeBytesSession, j) ∧
      Answered threeBytes threeBytesSession ⟨0, [0]⟩ j (twoReads 2) ∧
      readAll threeBytes [(0x81, 2), (0x81, 2)] threeBytesSession j = ([.ok [97, 98], .ok []], threeBytesSession, k) := by
  obtain ⟨j, hopen, hanswers⟩ := answered_twoReads (.inr rfl)
  obtain ⟨results, k, hall, rfl, -⟩ := @reads_hand_over_what_fits threeBytes threeBytesSession ⟨0, [0]⟩ j (twoReads 2)
    rfl (by decide) (by decide) areSized_twoReads hanswers
  exact ⟨j, k, hopen, hanswers, hall⟩

/-- Nothing keeps the bytes that had no room: read with room for one byte first, the chip is never heard to send
    the other two. -/
theorem surplus_is_dropped : ∃ j,
    (Session.openSession threeBytes).perform { identity := threeBytesIdentity } {} = (.ok (), threeBytesSession, j) ∧
      Answered threeBytes threeBytesSession ⟨0, [0]⟩ j (twoReads 1) ∧
      (∀ x ∈ twoReads 1, ∀ packets, x.answer = .ok packets → AreSized threeBytesSession.packetSize packets) ∧
      (readAll threeBytes [(0x81, 1), (0x81, 2)] threeBytesSession j).1.flatMap bytesOf = [97] ∧
      (twoReads 1).flatMap Exchange.payload = [97, 98, 99] := by
  obtain ⟨j, hopen, hanswers⟩ := answered_twoReads (.inl rfl)
  obtain ⟨k, hall⟩ := @readAll_eq threeBytes threeBytesSession ⟨0, [0]⟩ j (twoReads 1) rfl (by decide) (by decide)
    areSized_twoReads hanswers
  exact ⟨j, hopen, hanswers, areSized_twoReads, congrArg (fun last => last.1.flatMap bytesOf) hall, rfl⟩

end Peripheral.Ftdi
