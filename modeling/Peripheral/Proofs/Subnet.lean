import Peripheral.Proofs.Address.Arithmetic
import Peripheral.Subnet

/-
  Peripheral.Proofs.Subnet — the addresses of a subnet.

  A subnet with `n` host bits is a block of `2 ^ n` addresses in a row that starts at its base
  and does not run past the last address of the family (`Block`, `block_of`). So its places
  stand for different addresses in ascending order (`host_lt_host`), and the hosts that can be
  scanned leave out the first and the last of them (`mem_hosts_iff`).
-/

namespace Peripheral.Subnet

open Address

/-- Bits that the hosts of the subnet differ in. -/
def hostBits (s : Subnet) : Nat := s.base.family.width - s.prefixLen.toNat

/-- The last address of the subnet. -/
def broadcast (s : Subnet) : Address := s.host (2 ^ s.hostBits - 1)

/-- What holds of every subnet that an address and a prefix make. -/
structure Block (s : Subnet) : Prop where
  /-- The addresses of the subnet end before the family does. -/
  fits : s.base.toBits + 2 ^ s.hostBits ≤ 2 ^ s.base.family.width
  /-- The count is the number of addresses, or less where that is no 128-bit number. -/
  count_eq : s.count = hostCount s.prefixLen.toNat s.base.family.width

variable {s : Subnet} {a : Address} {len : UInt32}

/-- A subnet is its base, its prefix and its count, as the address and the prefix say. -/
theorem of_eq_ok (h : Subnet.of a len = .ok s) :
    s.prefixLen = len ∧ len.toNat ≤ a.family.width ∧ s.base.family = a.family ∧
      s.base.toBits = a.toBits / 2 ^ (a.family.width - len.toNat) * 2 ^ (a.family.width - len.toNat) ∧
      s.count = hostCount len.toNat a.family.width := by
  unfold Subnet.of at h
  cases hm : Address.mask a.family len.toNat with
  | error e =>
    rw [hm] at h
    cases h
  | ok m =>
    obtain ⟨b, hb, hf, hbits⟩ := toBits_base hm
    rw [hm] at h
    simp only [bind, Except.bind, hb, pure, Except.pure, Except.ok.injEq] at h
    subst h
    exact ⟨rfl, (mask_eq_ok_iff.mp hm).1, hf, hbits, rfl⟩

theorem block_of (h : Subnet.of a len = .ok s) : s.Block := by
  obtain ⟨hlen, hle, hf, hbits, hcount⟩ := of_eq_ok h
  refine ⟨?_, by rw [hcount, hlen, hf]⟩
  have hw : 2 ^ a.family.width = 2 ^ len.toNat * 2 ^ (a.family.width - len.toNat) := by
    rw [← Nat.pow_add, Nat.add_sub_cancel' hle]
  have hq : a.toBits / 2 ^ (a.family.width - len.toNat) < 2 ^ len.toNat :=
    Nat.div_lt_of_lt_mul (by
      rw [Nat.mul_comm, ← hw]
      exact a.toBits_lt)
  rw [hostBits, hlen, hf, hbits, hw, ← Nat.succ_mul]
  exact Nat.mul_le_mul_right _ hq

/-! ## Places -/

theorem Block.count_le (h : s.Block) : s.count ≤ 2 ^ s.hostBits := by
  rw [h.count_eq, hostCount, ← hostBits]
  split
  · rw [Nat.one_shiftLeft]
  · rename_i hn
    have : 2 ^ 128 ≤ 2 ^ s.hostBits := Nat.pow_le_pow_right (by decide) (by omega)
    rw [greatestCount, Nat.one_shiftLeft]
    omega

@[simp] theorem family_host (i : Nat) : (s.host i).family = s.base.family := family_offset _ _

theorem Block.toBits_host (h : s.Block) {i : Nat} (hi : i < 2 ^ s.hostBits) :
    (s.host i).toBits = s.base.toBits + i := by
  have := h.fits
  rw [host, toBits_offset, Nat.mod_eq_of_lt (by omega)]

/-- Places in ascending order are addresses in ascending order. -/
theorem Block.host_lt_host (h : s.Block) {i j : Nat} (hij : i < j) (hj : j < 2 ^ s.hostBits) :
    s.host i < s.host j := by
  rw [lt_iff_toBits_lt (by simp), h.toBits_host (by omega), h.toBits_host hj]
  omega

theorem Block.host_inj (h : s.Block) {i j : Nat} (hi : i < 2 ^ s.hostBits) (hj : j < 2 ^ s.hostBits)
    (he : s.host i = s.host j) : i = j := by
  have := congrArg toBits he
  rw [h.toBits_host hi, h.toBits_host hj] at this
  omega

/-! ## Hosts that can be scanned -/

theorem mem_hostIndices_iff {i : Nat} : i ∈ s.hostIndices ↔ 1 ≤ i ∧ i + 2 ≤ s.count := by
  unfold hostIndices hostRange
  split
  · simp
    omega
  · rw [List.mem_range'_1]
    omega

theorem pairwise_hostIndices : s.hostIndices.Pairwise (· < ·) := List.pairwise_lt_range'

theorem mem_hosts_iff {x : Address} : x ∈ s.hosts ↔ ∃ i, 1 ≤ i ∧ i + 2 ≤ s.count ∧ s.host i = x := by
  simp only [hosts, List.mem_map, mem_hostIndices_iff, and_assoc]

theorem Block.lt_of_mem_hostIndices (h : s.Block) {i : Nat} (hi : i ∈ s.hostIndices) : i < 2 ^ s.hostBits := by
  have := h.count_le
  have := mem_hostIndices_iff.mp hi
  omega

theorem Block.pairwise_hosts (h : s.Block) : s.hosts.Pairwise (· < ·) := by
  rw [hosts, List.pairwise_map]
  refine pairwise_hostIndices.imp_of_mem fun _ hj hij => ?_
  exact h.host_lt_host hij (h.lt_of_mem_hostIndices hj)

/-- Neither the network nor the broadcast address can be scanned. -/
theorem Block.ne_of_mem_hosts (h : s.Block) {x : Address} (hx : x ∈ s.hosts) : x ≠ s.base ∧ x ≠ s.broadcast := by
  obtain ⟨i, h1, h2, rfl⟩ := mem_hosts_iff.mp hx
  have hcount := h.count_le
  have hbits := h.toBits_host (i := i) (by omega)
  refine ⟨fun he => ?_, fun he => ?_⟩
  · rw [he] at hbits
    omega
  · have := h.host_inj (by omega) (by omega) he
    omega

end Peripheral.Subnet
