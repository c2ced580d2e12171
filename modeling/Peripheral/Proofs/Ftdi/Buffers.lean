import Mathlib.Data.List.Basic
import Peripheral.Proofs.Ftdi.History
import Peripheral.Proofs.Ftdi.Packet

/-
  Peripheral.Proofs.Ftdi.Buffers — from raw bytes to the buffer of the caller.

  (1) The payload is what does not stand in the first two places of a packet
  (`payload_eq_behindStatus`), and whole packets carry the same number of bytes each
  (`length_payload_of_whole`).

  (2) Done on the buffer itself, the copying keeps a place in it and cuts there. The place
  never passes the end, so that every cut is in range, and what it leaves in the buffer is what
  `strip` says (`strip?_eq`).

  (3) The number of raw bytes to ask for is computed in range if the product is in range
  (`rawSize?_eq`). It is that of the fewest whole packets that carry what the buffer takes
  (`rawSize_le_iff`).
-/

namespace Peripheral.Ftdi

variable {packetSize limit len : Nat} {raw buffer : List UInt8}

/-! ## (1) Payload -/

/-- The bytes that do not stand in the places of the status bytes, counted from the front of a packet. -/
def behindStatus (packetSize : Nat) (raw : List UInt8) : List UInt8 :=
  (raw.zipIdx.filter fun x => decide (statusLength ≤ x.2 % packetSize)).map Prod.fst

/-- Counted from the front of its packet, a byte of a piece stands where it stands in the piece, the piece's own place
    added. -/
theorem mod_of_mem_zipIdx {piece : List UInt8} {n place : Nat} (hpiece : place + piece.length ≤ packetSize)
    {x : UInt8 × Nat} (hx : x ∈ piece.zipIdx (packetSize * n + place)) :
    place ≤ x.2 % packetSize ∧ x.2 % packetSize < place + piece.length := by
  obtain ⟨hle, hlt, -⟩ := List.mem_zipIdx hx
  obtain ⟨i, hi⟩ : ∃ i, x.2 = packetSize * n + i := Nat.exists_eq_add_of_le (Nat.le_of_add_right_le hle)
  rw [hi, Nat.mul_add_mod, Nat.mod_eq_of_lt (by omega)]
  omega

/-- One packet, wherever it stands among the others. -/
theorem filter_zipIdx_packet {packet : List UInt8} (hpacket : packet.length ≤ packetSize) (n : Nat) :
    ((packet.zipIdx (packetSize * n)).filter fun x => decide (statusLength ≤ x.2 % packetSize)).map Prod.fst =
      packet.drop statusLength := by
  have hcut : packet.zipIdx (packetSize * n) = (packet.take statusLength).zipIdx (packetSize * n + 0) ++
      (packet.drop statusLength).zipIdx (packetSize * n + (packet.take statusLength).length) := by
    rw [Nat.add_zero, ← List.zipIdx_append, List.take_append_drop]
  have hstatus : ((packet.take statusLength).zipIdx (packetSize * n + 0)).filter
      (fun x => decide (statusLength ≤ x.2 % packetSize)) = [] := by
    rw [List.filter_eq_nil_iff]
    intro x hx
    have hplace := (mod_of_mem_zipIdx (by rw [List.length_take]; omega) hx).2
    rw [List.length_take] at hplace
    rw [decide_eq_true_eq]
    omega
  have hrest : ((packet.drop statusLength).zipIdx (packetSize * n + (packet.take statusLength).length)).filter
      (fun x => decide (statusLength ≤ x.2 % packetSize)) =
        (packet.drop statusLength).zipIdx (packetSize * n + (packet.take statusLength).length) := by
    rw [List.filter_eq_self]
    intro x hx
    have hplace := mod_of_mem_zipIdx (by rw [List.length_take, List.length_drop]; omega) hx
    rw [List.length_take, List.length_drop] at hplace
    rw [decide_eq_true_eq]
    omega
  rw [hcut, List.filter_append, hstatus, hrest, List.nil_append, List.zipIdx_map_fst]

theorem filter_zipIdx_packets (hsize : 0 < packetSize) (raw : List UInt8) (n : Nat) :
    ((raw.zipIdx (packetSize * n)).filter fun x => decide (statusLength ≤ x.2 % packetSize)).map Prod.fst =
      (chunks packetSize raw).flatMap (·.drop statusLength) := by
  fun_induction chunks packetSize raw generalizing n with
  | case1 => rfl
  | case2 a rest ih =>
    have hpacket : (a :: rest.take (packetSize - 1)).length ≤ packetSize := by
      rw [List.length_cons, List.length_take]
      omega
    have hcut : a :: rest = (a :: rest.take (packetSize - 1)) ++ rest.drop (packetSize - 1) := by
      rw [List.cons_append, List.take_append_drop]
    rw [List.flatMap_cons, ← filter_zipIdx_packet hpacket n, ← ih (n + 1)]
    conv_lhs => rw [hcut]
    rw [List.zipIdx_append, List.filter_append, List.map_append]
    -- a packet that is not full is the last one
    by_cases hfull : packetSize ≤ rest.length + 1
    · have hlength : (a :: rest.take (packetSize - 1)).length = packetSize := by
        rw [List.length_cons, List.length_take]
        omega
      rw [hlength, Nat.mul_succ]
    · have hnil : rest.drop (packetSize - 1) = [] := List.drop_of_length_le (by omega)
      rw [hnil]
      rfl

/-- The payload is told by the places of the bytes alone. -/
theorem payload_eq_behindStatus (hsize : statusLength < packetSize) (raw : List UInt8) :
    payload packetSize raw = behindStatus packetSize raw := by
  have hpackets := filter_zipIdx_packets (Nat.zero_lt_of_lt hsize) raw 0
  rw [Nat.mul_zero] at hpackets
  rw [payload, if_neg (Nat.not_le.mpr hsize), behindStatus, hpackets]

theorem length_payload_of_whole (hsize : statusLength < packetSize) {n : Nat} (hraw : raw.length = n * packetSize) :
    (payload packetSize raw).length = n * (packetSize - statusLength) := by
  rw [payload, if_neg (Nat.not_le.mpr hsize)]
  induction n generalizing raw with
  | zero =>
    rw [Nat.zero_mul] at hraw ⊢
    rw [List.eq_nil_of_length_eq_zero hraw, chunks]
    rfl
  | succ n ih =>
    rw [Nat.succ_mul] at hraw ⊢
    have hpacket : (raw.take packetSize).length = packetSize := by
      rw [List.length_take]
      omega
    have hrest : (raw.drop packetSize).length = n * packetSize := by
      rw [List.length_drop]
      omega
    rw [← List.take_append_drop packetSize raw, chunks_append hpacket (Nat.zero_lt_of_lt hsize), List.flatMap_cons,
      List.length_append, List.length_drop, hpacket, ih hrest, Nat.add_comm]

/-! ## (2) The buffer -/

theorem writeAt?_append {done bytes rest : List UInt8} (h : bytes.length ≤ rest.length) :
    writeAt? done.length bytes (done ++ rest) = some (done ++ bytes ++ rest.drop bytes.length) := by
  rw [writeAt?, if_pos (by rw [List.length_append]; omega), List.take_left, List.drop_append]
  simp

/-- Behind what is done, the buffer takes what `copyPackets` gives for the room that is left. -/
theorem fill?_append (packets : List (List UInt8)) (done rest : List UInt8) :
    fill? packets done.length (done ++ rest) =
      some (done.length + (copyPackets packets rest.length).length,
        done ++ copyPackets packets rest.length ++ rest.drop (copyPackets packets rest.length).length) := by
  induction packets generalizing done rest with
  | nil => simp [fill?, copyPackets]
  | cons p ps ih =>
    rw [fill?, copyPackets]
    by_cases hp : p.length ≤ statusLength
    · rw [if_pos hp, if_pos hp, ih]
    · have hroom : (done ++ rest).length - done.length = rest.length := by
        rw [List.length_append, Nat.add_sub_cancel_left]
      rw [if_neg hp, if_neg hp, if_neg (by rw [List.length_append]; omega)]
      simp only [hroom]
      generalize hbytes : (p.drop statusLength).take rest.length = bytes
      have hfits : bytes.length ≤ rest.length := by
        rw [← hbytes, List.length_take]
        exact Nat.min_le_left _ _
      rw [writeAt?_append hfits, Option.bind_some]
      by_cases hfull : bytes.length = rest.length
      · rw [if_pos (by simp; omega), if_pos hfull]
      · have hnext := ih (done ++ bytes) (rest.drop bytes.length)
        rw [List.length_append, List.length_drop] at hnext
        rw [if_neg (by simp; omega), if_neg hfull, hnext]
        simp [Nat.add_assoc]

/-- No cut is out of range. -/
theorem strip?_eq (packetSize : Nat) (raw buffer : List UInt8) :
    strip? packetSize raw buffer = some (strip packetSize raw buffer) := by
  rw [strip?, strip, stripped]
  by_cases hsize : packetSize ≤ statusLength
  · rw [if_pos hsize, if_pos hsize]
    rfl
  · have hfill := fill?_append (chunks packetSize raw) [] buffer
    rw [if_neg hsize, if_neg hsize]
    simpa using hfill

theorem strip_eq (packetSize : Nat) (raw buffer : List UInt8) :
    strip packetSize raw buffer = (min (payload packetSize raw).length buffer.length,
      (payload packetSize raw).take buffer.length ++
        buffer.drop (min (payload packetSize raw).length buffer.length)) := by
  rw [strip, stripped_eq_take, List.length_take, Nat.min_comm]

/-! ## (3) Sizes -/

/-- Rounding up, by the remainder. -/
theorem ceilDiv_eq {n d : Nat} (hd : 0 < d) : (n + d - 1) / d = if n % d = 0 then n / d else n / d + 1 := by
  have hn := Nat.div_add_mod n d
  have hr := Nat.mod_lt n hd
  have hcut : n + d - 1 = d * (n / d) + (n % d + d - 1) := by omega
  rw [hcut, Nat.mul_add_div hd]
  by_cases hzero : n % d = 0
  · have hnone : (d - 1) / d = 0 := Nat.div_eq_of_lt (by omega)
    rw [if_pos hzero, hzero, Nat.zero_add, hnone, Nat.add_zero]
  · have hone : n % d + d - 1 = d + (n % d - 1) := by omega
    have hnone : (n % d - 1) / d = 0 := Nat.div_eq_of_lt (by omega)
    rw [if_neg hzero, hone, Nat.add_div_left _ hd, hnone]

/-- Nothing leaves the range but, at most, the product. -/
theorem rawSize?_eq (hsize : statusLength < packetSize) (hlimit : rawSize len packetSize < limit) :
    rawSize? limit len packetSize = some (rawSize len packetSize) := by
  have hpos : 0 < packetSize - statusLength := Nat.sub_pos_of_lt hsize
  have hle : (len + (packetSize - statusLength) - 1) / (packetSize - statusLength) ≤ rawSize len packetSize :=
    Nat.le_mul_of_pos_right _ (Nat.zero_lt_of_lt hsize)
  have hnot : ¬ limit ≤ (len + (packetSize - statusLength) - 1) / (packetSize - statusLength) := by omega
  rw [rawSize?, if_neg (by omega), if_neg (by omega)]
  simp only [← ceilDiv_eq hpos, hnot, if_false]
  exact if_neg (Nat.not_le.mpr hlimit)

/-- The raw bytes asked for are the fewest whole packets that carry so many bytes. -/
theorem rawSize_le_iff (hsize : statusLength < packetSize) (m : Nat) :
    rawSize len packetSize ≤ m * packetSize ↔ len ≤ m * (packetSize - statusLength) := by
  have hpos : 0 < packetSize - statusLength := Nat.sub_pos_of_lt hsize
  rw [rawSize, Nat.mul_le_mul_right_iff (Nat.zero_lt_of_lt hsize), Nat.div_le_iff_le_mul_add_pred hpos, Nat.mul_comm]
  omega

/-! ## (4) Sessions -/

/-- Whatever is stripped into whatever buffer: the front of it takes as much of the payload as fits, the rest of it is
    left alone, and no cut is out of range. In every session, however it got there, a packet has room for payload; the
    raw bytes asked for are computed in range, are the fewest whole packets whose payload reaches the length, and fill a
    buffer of that length. -/
theorem payload_fills_buffers :
    (∀ packetSize raw buffer,
      payload packetSize raw = (if statusLength < packetSize then behindStatus packetSize raw else []) ∧
      strip? packetSize raw buffer = some (strip packetSize raw buffer) ∧
      strip packetSize raw buffer = (min (payload packetSize raw).length buffer.length,
        (payload packetSize raw).take buffer.length ++
          buffer.drop (min (payload packetSize raw).length buffer.length))) ∧
    ∀ bus id j₀ s j, Ran bus id j₀ s j → statusLength < s.packetSize ∧
      ∀ limit len, rawSize len s.packetSize < limit → ∃ n,
        rawSize? limit len s.packetSize = some (n * s.packetSize) ∧ rawSize len s.packetSize = n * s.packetSize ∧
        (∀ m raw, raw.length = m * s.packetSize → (len ≤ (payload s.packetSize raw).length ↔ n ≤ m)) ∧
        ∀ raw buffer, raw.length = n * s.packetSize → buffer.length = len →
          strip s.packetSize raw buffer = (len, (payload s.packetSize raw).take len) := by
  refine ⟨fun packetSize raw buffer => ⟨?_, strip?_eq packetSize raw buffer, strip_eq packetSize raw buffer⟩, ?_⟩
  · split
    · exact payload_eq_behindStatus ‹_› raw
    · exact if_pos (Nat.not_lt.mp ‹_›)
  intro bus id j₀ s j hran
  have hsize := hran.isPacketSize.1
  refine ⟨hsize, fun limit len hlimit => ⟨_, rawSize?_eq hsize hlimit, rfl, ?_, ?_⟩⟩
  · intro m raw hraw
    have hleast : rawSize len s.packetSize ≤ m * s.packetSize ↔ len ≤ m * (s.packetSize - statusLength) :=
      rawSize_le_iff hsize m
    rw [length_payload_of_whole hsize hraw, ← hleast, rawSize, Nat.mul_le_mul_right_iff (Nat.zero_lt_of_lt hsize)]
  · intro raw buffer hraw hbuffer
    have hreaches : len ≤ (payload s.packetSize raw).length := by
      rw [length_payload_of_whole hsize hraw, ← rawSize_le_iff hsize]
      exact Nat.le_refl _
    rw [strip_eq, hbuffer, Nat.min_eq_right hreaches, List.drop_of_length_le (Nat.le_of_eq hbuffer), List.append_nil]

/-- A chip with packets of 512 bytes. -/
def highSpeedChip : Usb.Bus where
  devices := [{
    vendorId := Usb.ftdiVendor, productId := 0x6014, descriptorFailure := none, ports := .ok [1],
    config := .ok [[[⟨0x81, 512⟩, ⟨0x02, 512⟩]]], manufacturer := none, name := none, serialNumber := none,
    opens := fun _ => none, autoDetach := fun _ => none, claim := fun _ => none, release := fun _ => none,
    transfers := fun _ => {} }]

def highSpeedIdentity : UsbIdentity := ⟨"", "", "", "1", Usb.ftdiVendor, 0x6014⟩

/-- One packet of it carries 510 bytes, so 511 take two. -/
theorem two_packets_of_high_speed_chip : ∃ s j, Ran highSpeedChip highSpeedIdentity {} s j ∧ s.packetSize = 512 ∧
    rawSize 511 512 < UInt64.size ∧ rawSize? UInt64.size 511 512 = some 1024 ∧
    ∀ raw buffer, raw.length = 1024 → buffer.length = 511 →
      strip 512 raw buffer = (511, (payload 512 raw).take 511) := by
  have hnew : Ran highSpeedChip highSpeedIdentity {} { identity := highSpeedIdentity } {} := .new
  have hran := hnew.act .openSession rfl
  have hlimit : rawSize 511 512 < UInt64.size := by decide
  obtain ⟨-, hsizes⟩ := payload_fills_buffers.2 _ _ _ _ _ hran
  obtain ⟨n, hchecked, hn, -, hfills⟩ := hsizes UInt64.size 511 hlimit
  refine ⟨_, _, hran, rfl, hlimit, ?_, ?_⟩
  · exact hchecked.trans (congrArg some hn.symm)
  · intro raw buffer hraw
    exact hfills raw buffer (hraw.trans hn)

end Peripheral.Ftdi
