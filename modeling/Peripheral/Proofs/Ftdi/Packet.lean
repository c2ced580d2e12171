import Peripheral.Ftdi.Packet

/-
  Peripheral.Proofs.Ftdi.Packet — what stripping leaves of the packets of a chip.

  Stripping writes as much of the payload as fits (`stripped_eq_take`). Raw bytes that are
  packets of one size, the last one perhaps shorter, fall into these packets again
  (`chunks_wire`), so their payload is that of the packets (`payload_wire`). Whole packets
  asked for a number of bytes that fills them hold no more than that (`length_carried_le`).
-/

namespace Peripheral.Ftdi

/-! ## Stripping -/

theorem copyPackets_eq_take (packets : List (List UInt8)) (room : Nat) :
    copyPackets packets room = (packets.flatMap (·.drop statusLength)).take room := by
  induction packets generalizing room with
  | nil => rw [copyPackets, List.flatMap_nil, List.take_nil]
  | cons p ps ih =>
    rw [copyPackets, List.flatMap_cons]
    by_cases hp : p.length ≤ statusLength
    · rw [if_pos hp, ih, List.drop_of_length_le hp, List.nil_append]
    · rw [if_neg hp, List.take_append]
      have hlen := List.length_take (i := room) (l := p.drop statusLength)
      by_cases hfull : ((p.drop statusLength).take room).length = room
      · -- the buffer is full, so nothing of the other packets has room
        have hrest : room - (p.drop statusLength).length = 0 := by omega
        simp only [hfull, if_true, hrest, List.take_zero, List.append_nil]
      · have hwhole : (p.drop statusLength).length ≤ room := by omega
        rw [List.take_of_length_le hwhole] at hfull ⊢
        simp only [hfull, if_false, ih]

/-- As much of the payload as fits. -/
theorem stripped_eq_take (packetSize : Nat) (raw : List UInt8) (room : Nat) :
    stripped packetSize raw room = (payload packetSize raw).take room := by
  unfold stripped payload
  by_cases hsize : packetSize ≤ statusLength
  · rw [if_pos hsize, if_pos hsize, List.take_nil]
  · rw [if_neg hsize, if_neg hsize, copyPackets_eq_take]

/-! ## Packets -/

/-- A packet as the chip sends it. -/
structure Packet where
  modemStatus : UInt8
  lineStatus : UInt8
  payload : List UInt8

namespace Packet

def bytes (p : Packet) : List UInt8 := p.modemStatus :: p.lineStatus :: p.payload

@[simp] theorem length_bytes (p : Packet) : p.bytes.length = p.payload.length + statusLength := rfl

end Packet

/-- The bytes on the wire. -/
def wire (packets : List Packet) : List UInt8 := packets.flatMap Packet.bytes

/-- What the packets carry. -/
def carried (packets : List Packet) : List UInt8 := packets.flatMap Packet.payload

/-- Packets of one size, the last one perhaps shorter. -/
def AreSized (packetSize : Nat) (packets : List Packet) : Prop :=
  (∀ p ∈ packets.dropLast, p.bytes.length = packetSize) ∧ ∀ p ∈ packets, p.bytes.length ≤ packetSize

variable {packetSize : Nat} {packets : List Packet}

theorem AreSized.tail {p : Packet} (h : AreSized packetSize (p :: packets)) : AreSized packetSize packets := by
  refine ⟨?_, fun q hq => h.2 q (List.mem_cons_of_mem p hq)⟩
  intro q hq
  cases packets with
  | nil => cases hq
  | cons r rest => exact h.1 q (List.mem_cons_of_mem p hq)

theorem chunks_wire (hsize : 0 < packetSize) (h : AreSized packetSize packets) :
    chunks packetSize (wire packets) = packets.map Packet.bytes := by
  induction packets with
  | nil => rw [wire, List.flatMap_nil, chunks, List.map_nil]
  | cons p rest ih =>
    cases rest with
    | nil =>
      have hlast : p.bytes.length ≤ packetSize := h.2 p List.mem_cons_self
      have hone : wire [p] = p.bytes := List.append_nil p.bytes
      rw [hone]
      exact chunks_eq_singleton (List.cons_ne_nil _ _) hlast
    | cons q rest =>
      have hfull : p.bytes.length = packetSize := h.1 p List.mem_cons_self
      have hcut : wire (p :: q :: rest) = p.bytes ++ wire (q :: rest) := rfl
      rw [hcut, chunks_append hfull hsize, ih h.tail, List.map_cons (f := Packet.bytes) (a := p)]

theorem payload_wire (hsize : statusLength < packetSize) (h : AreSized packetSize packets) :
    payload packetSize (wire packets) = carried packets := by
  unfold payload
  rw [if_neg (Nat.not_le.mpr hsize), chunks_wire (Nat.zero_lt_of_lt hsize) h, List.flatMap_map]
  rfl

/-- Every packet takes its status bytes, so whole packets of wire carry less than they measure. -/
theorem length_carried_le (hsize : statusLength < packetSize) (h : AreSized packetSize packets) {n : Nat}
    (hn : (wire packets).length ≤ n * packetSize) : (carried packets).length ≤ n * (packetSize - statusLength) := by
  induction packets generalizing n with
  | nil => exact Nat.zero_le _
  | cons p rest ih =>
    have hp : p.bytes.length ≤ packetSize := h.2 p List.mem_cons_self
    have hwire : (wire (p :: rest)).length = p.bytes.length + (wire rest).length := List.length_append
    have hcarried : (carried (p :: rest)).length = p.payload.length + (carried rest).length := List.length_append
    rw [Packet.length_bytes] at hp hwire
    cases n with
    | zero =>
      have hstatus : statusLength = 2 := rfl
      omega
    | succ n =>
      have hrest : (wire rest).length ≤ n * packetSize := by
        cases rest with
        | nil => exact Nat.zero_le _
        | cons q rest =>
          have hfull : p.bytes.length = packetSize := h.1 p List.mem_cons_self
          rw [Packet.length_bytes] at hfull
          rw [Nat.succ_mul] at hn
          omega
      have hle := ih h.tail hrest
      rw [Nat.succ_mul]
      omega

/-- A number of bytes that fills `n` packets takes these and no more. -/
theorem rawSize_of_filled (hsize : statusLength < packetSize) (n : Nat) :
    rawSize ((packetSize - statusLength) * n) packetSize = n * packetSize := by
  have hpos : 0 < packetSize - statusLength := Nat.sub_pos_of_lt hsize
  have hround : ((packetSize - statusLength) * n + (packetSize - statusLength) - 1) / (packetSize - statusLength) = n := by
    rw [Nat.add_sub_assoc hpos, Nat.mul_add_div hpos, Nat.div_eq_of_lt (Nat.sub_one_lt_of_lt hpos), Nat.add_zero]
  unfold rawSize
  simp only [hround]

end Peripheral.Ftdi
