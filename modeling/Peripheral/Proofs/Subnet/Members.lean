import Peripheral.Proofs.Subnet

/-
  Peripheral.Proofs.Subnet.Members — which addresses a subnet holds.

  With `n` host bits, an address is in the subnet if it has the bits of the interface address
  in front of the last `n` (`contains_iff`), that is, if the two numbers agree but for a
  remainder of `2 ^ n` (`agree_iff`). These are the addresses at the first `2 ^ n` places, each
  at one place (`contains_iff_existsUnique`). All but the first and the last of them are hosts
  that can be scanned (`mem_hosts_iff_contains`), as long as the number of places is a 128-bit
  number; the one subnet in which it is not holds all v6 addresses, and loses one more host.
-/

namespace Peripheral.Subnet

open Address

variable {s : Subnet} {a x : Address} {len : UInt32}

/-! ## Making a subnet -/

/-- A prefix longer than the address is the only failure. -/
theorem of_eq_error_iff {e : AddressError} :
    Subnet.of a len = .error e ↔ a.family.width < len.toNat ∧ e = .invalidPrefix len.toNat a.family := by
  unfold Subnet.of
  by_cases hlen : a.family.width < len.toNat
  · have hmask : Address.mask a.family len.toNat = .error (.invalidPrefix len.toNat a.family) := if_pos hlen
    simp only [hmask, bind, Except.bind, Except.error.injEq, hlen, true_and]
    exact eq_comm
  · have hmask : Address.mask a.family len.toNat = .ok _ := if_neg hlen
    obtain ⟨b, hb, -, -⟩ := toBits_base hmask
    simp [hmask, hb, bind, Except.bind, pure, Except.pure, hlen]

theorem exists_of (hlen : len.toNat ≤ a.family.width) : ∃ s, Subnet.of a len = .ok s := by
  cases h : Subnet.of a len with
  | ok s => exact ⟨s, rfl⟩
  | error e =>
    have := (of_eq_error_iff.mp h).1
    omega

theorem mask_of (h : Subnet.of a len = .ok s) :
    s.address = a ∧ Address.mask a.family len.toNat = .ok s.mask := by
  unfold Subnet.of at h
  cases hm : Address.mask a.family len.toNat with
  | error e =>
    rw [hm] at h
    cases h
  | ok m =>
    obtain ⟨b, hb, -, -⟩ := toBits_base hm
    rw [hm] at h
    simp only [bind, Except.bind, hb, pure, Except.pure, Except.ok.injEq] at h
    subst h
    exact ⟨rfl, rfl⟩

theorem hostBits_of (h : Subnet.of a len = .ok s) : s.hostBits = a.family.width - len.toNat := by
  obtain ⟨hlen, -, hf, -⟩ := of_eq_ok h
  rw [hostBits, hlen, hf]

/-! ## Members -/

/-- Two numbers of `w` bits agree in front of the last `n` bits if they are in one block of `2 ^ n`. -/
theorem agree_iff {u v w p : Nat} (hu : u < 2 ^ w) (hv : v < 2 ^ w) (hp : p ≤ w) :
    (∀ i < p, u.testBit (w - 1 - i) = v.testBit (w - 1 - i)) ↔ u / 2 ^ (w - p) = v / 2 ^ (w - p) := by
  constructor
  · intro h
    apply Nat.eq_of_testBit_eq
    intro j
    rw [Nat.testBit_div_two_pow, Nat.testBit_div_two_pow]
    by_cases hj : j < p
    · have := h (p - 1 - j) (by omega)
      rwa [show w - 1 - (p - 1 - j) = j + (w - p) by omega] at this
    · -- neither number reaches that far
      have hpow : 2 ^ w ≤ 2 ^ (j + (w - p)) := Nat.pow_le_pow_right (by decide) (by omega)
      rw [Nat.testBit_lt_two_pow (Nat.lt_of_lt_of_le hu hpow), Nat.testBit_lt_two_pow (Nat.lt_of_lt_of_le hv hpow)]
  · intro h i hi
    have := congrArg (Nat.testBit · (p - 1 - i)) h
    simp only [Nat.testBit_div_two_pow] at this
    rwa [show p - 1 - i + (w - p) = w - 1 - i by omega] at this

theorem contains_iff (h : Subnet.of a len = .ok s) :
    s.contains x = true ↔ x.family = a.family ∧ x.toBits / 2 ^ s.hostBits = a.toBits / 2 ^ s.hostBits := by
  obtain ⟨haddress, hmask⟩ := mask_of h
  obtain ⟨-, -, hf, hbits, -⟩ := of_eq_ok h
  rw [hostBits_of h]
  unfold contains
  rw [haddress, Bool.and_eq_true, beq_iff_eq]
  apply and_congr_right
  intro hx
  rw [← hx] at hmask
  obtain ⟨b, hb, hbf, hbbits⟩ := toBits_base hmask
  rw [hb, ← hx]
  simp only [beq_iff_eq]
  have hpos := Nat.two_pow_pos (x.family.width - len.toNat)
  rw [← hx] at hbits
  constructor
  · intro he
    rw [he, hbits] at hbbits
    exact (Nat.eq_of_mul_eq_mul_right hpos hbbits).symm
  · intro he
    apply eq_of_toBits_eq (by rw [hbf, hx, hf])
    rw [hbbits, hbits, he]

/-- A subnet holds the addresses at its first `2 ^ n` places. -/
theorem contains_iff_exists (h : Subnet.of a len = .ok s) :
    s.contains x = true ↔ ∃ i < 2 ^ s.hostBits, s.host i = x := by
  have hblock := block_of h
  obtain ⟨-, -, hf, hbits, -⟩ := of_eq_ok h
  rw [← hostBits_of h] at hbits
  have hpos := Nat.two_pow_pos s.hostBits
  rw [contains_iff h]
  constructor
  · rintro ⟨hx, hq⟩
    have hlt : x.toBits % 2 ^ s.hostBits < 2 ^ s.hostBits := Nat.mod_lt _ hpos
    refine ⟨x.toBits % 2 ^ s.hostBits, hlt, ?_⟩
    apply eq_of_toBits_eq (by rw [family_host, hf, hx])
    rw [hblock.toBits_host hlt, hbits, ← hq]
    exact Nat.div_add_mod' _ _
  · rintro ⟨i, hi, rfl⟩
    refine ⟨by rw [family_host, hf], ?_⟩
    rw [hblock.toBits_host hi, hbits, Nat.mul_comm, Nat.mul_add_div hpos, Nat.div_eq_of_lt hi, Nat.add_zero]

theorem contains_iff_existsUnique (h : Subnet.of a len = .ok s) :
    s.contains x = true ↔ ∃! i, i < 2 ^ s.hostBits ∧ s.host i = x := by
  rw [contains_iff_exists h]
  constructor
  · rintro ⟨i, hi, hx⟩
    refine ⟨i, ⟨hi, hx⟩, ?_⟩
    rintro j ⟨hj, hx'⟩
    exact (block_of h).host_inj hj hi (hx'.trans hx.symm)
  · rintro ⟨i, ⟨hi, hx⟩, -⟩
    exact ⟨i, hi, hx⟩

/-! ## Hosts that can be scanned -/

/-- Only for all v6 addresses together is the number of places no 128-bit number. -/
theorem count_of (h : Subnet.of a len = .ok s) :
    s.count = if a.family = .v6 ∧ len = 0 then 2 ^ 128 - 1 else 2 ^ s.hostBits := by
  obtain ⟨-, hle, -, -, hcount⟩ := of_eq_ok h
  rw [hcount, hostBits_of h, hostCount, greatestCount, Nat.one_shiftLeft, Nat.one_shiftLeft]
  have hzero : len = 0 ↔ len.toNat = 0 := by rw [← UInt32.toNat_inj]; rfl
  cases hf : a.family with
  | v4 =>
    have : Family.v4.width - len.toNat < 128 := by
      rw [Family.width]
      omega
    simp [this]
  | v6 =>
    rw [hf] at hle
    rw [Family.width] at *
    by_cases hl : len.toNat = 0
    · simp [hl, hzero]
    · rw [if_pos (by omega), if_neg (by rw [hzero]; omega)]

/-- The last address but one among all v6 addresses. -/
def lastV6ButOne : Address := .v6 #v[0xffff, 0xffff, 0xffff, 0xffff, 0xffff, 0xffff, 0xffff, 0xfffe]

theorem Block.host_eq_iff (h : s.Block) {i j : Nat} (hi : i < 2 ^ s.hostBits) (hj : j < 2 ^ s.hostBits) :
    s.host i = s.host j ↔ i = j := ⟨h.host_inj hi hj, congrArg s.host⟩

theorem Block.base_eq (h : s.Block) : s.base = s.host 0 := by
  apply eq_of_toBits_eq (family_host 0).symm
  rw [h.toBits_host (Nat.two_pow_pos _), Nat.add_zero]

theorem Block.host_mem_hosts_iff (h : s.Block) {i : Nat} (hi : i < 2 ^ s.hostBits) :
    s.host i ∈ s.hosts ↔ 1 ≤ i ∧ i + 2 ≤ s.count := by
  have hcount := h.count_le
  rw [mem_hosts_iff]
  constructor
  · rintro ⟨j, h1, h2, he⟩
    rw [h.host_eq_iff (by omega) hi] at he
    omega
  · rintro ⟨h1, h2⟩
    exact ⟨i, h1, h2, rfl⟩

/-- Where it counts, it is the last place but one. -/
theorem host_eq_lastV6ButOne_iff (h : Subnet.of a len = .ok s) (hf : a.family = .v6) (hl : len = 0) {i : Nat}
    (hi : i < 2 ^ s.hostBits) : s.host i = lastV6ButOne ↔ i = 2 ^ 128 - 2 := by
  have hblock := block_of h
  obtain ⟨-, -, hbase, hbits, -⟩ := of_eq_ok h
  have hn : s.hostBits = 128 := by
    rw [hostBits_of h, hf, hl]
    rfl
  have hzero : s.base.toBits = 0 := by
    have hlt : a.toBits < 2 ^ 128 := by
      have := a.toBits_lt
      rwa [hf] at this
    rw [hbits, hf, hl]
    show a.toBits / 2 ^ 128 * 2 ^ 128 = 0
    rw [Nat.div_eq_of_lt hlt, Nat.zero_mul]
  have hlast : lastV6ButOne = s.host (2 ^ 128 - 2) := by
    apply eq_of_toBits_eq
    · rw [family_host, hbase, hf]
      rfl
    · rw [hblock.toBits_host (by rw [hn]; decide), hzero]
      decide
  rw [hlast, hblock.host_eq_iff hi (by rw [hn]; decide)]

/-- The hosts are the members but for the first and the last one; where the number of places is no 128-bit
    number, one more is left out. -/
theorem mem_hosts_iff_contains (h : Subnet.of a len = .ok s) :
    x ∈ s.hosts ↔ s.contains x = true ∧ x ≠ s.base ∧ x ≠ s.broadcast ∧
      ¬ (a.family = .v6 ∧ len = 0 ∧ x = lastV6ButOne) := by
  have hblock := block_of h
  have hcount := count_of h
  have hpos := Nat.two_pow_pos s.hostBits
  by_cases hx : s.contains x = true
  · obtain ⟨i, hi, rfl⟩ := (contains_iff_exists h).mp hx
    rw [hblock.host_mem_hosts_iff hi, hblock.base_eq, broadcast, ne_eq, ne_eq, hblock.host_eq_iff hi hpos,
      hblock.host_eq_iff hi (by omega)]
    by_cases hall : a.family = .v6 ∧ len = 0
    · have hn : s.hostBits = 128 := by
        rw [hostBits_of h, hall.1, hall.2]
        rfl
      have hlast := host_eq_lastV6ButOne_iff h hall.1 hall.2 hi
      rw [if_pos hall] at hcount
      simp only [hx, hall.1, hall.2, hlast, hcount, hn, true_and] at hi ⊢
      omega
    · have hnone : ¬ (a.family = .v6 ∧ len = 0 ∧ s.host i = lastV6ButOne) := fun h => hall ⟨h.1, h.2.1⟩
      rw [if_neg hall] at hcount
      simp only [hx, hnone, hcount, true_and, not_false_eq_true, and_true]
      omega
  · constructor
    · intro hmem
      obtain ⟨i, h1, h2, hi⟩ := mem_hosts_iff.mp hmem
      have := hblock.count_le
      exact absurd ((contains_iff_exists h).mpr ⟨i, by omega, hi⟩) hx
    · intro hmem
      exact absurd hmem.1 hx

/-- A subnet in numbers: of the `w` bits of its addresses the last `n` tell them apart. -/
structure Spans (s : Subnet) (a : Address) (len : UInt32) (w n : Nat) : Prop where
  mask : s.mask.family = a.family ∧ s.mask.toBits = 2 ^ w - 2 ^ n
  base : s.base.family = a.family ∧ s.base.toBits = a.toBits / 2 ^ n * 2 ^ n
  count : s.count = if a.family = .v6 ∧ len = 0 then 2 ^ 128 - 1 else 2 ^ n
  /-- The members have the family and the first bits of the interface address. -/
  members : ∀ x, s.contains x = true ↔ x.family = a.family ∧
    ∀ i < len.toNat, x.toBits.testBit (w - 1 - i) = a.toBits.testBit (w - 1 - i)
  /-- Each member has one place. -/
  places : ∀ x, s.contains x = true ↔ ∃! i, i < 2 ^ n ∧ s.host i = x
  ascending : s.hosts.Pairwise (· < ·)
  /-- The hosts are the members but for the first and the last one, and one more among all v6 addresses. -/
  hosts : ∀ x, x ∈ s.hosts ↔ s.contains x = true ∧ x ≠ s.host 0 ∧ x ≠ s.host (2 ^ n - 1) ∧
    ¬ (a.family = .v6 ∧ len = 0 ∧ x = lastV6ButOne)
  noHosts : n ≤ 1 → s.hosts = []

theorem spans_of (h : Subnet.of a len = .ok s) :
    s.Spans a len a.family.width (a.family.width - len.toNat) := by
  have hblock := block_of h
  obtain ⟨-, hlen, hf, hbits, -⟩ := of_eq_ok h
  obtain ⟨-, hmask⟩ := mask_of h
  rw [← hostBits_of h] at hbits ⊢
  have hhosts := fun x => mem_hosts_iff_contains (x := x) h
  rw [hblock.base_eq, broadcast] at hhosts
  refine ⟨?_, ⟨hf, hbits⟩, count_of h, ?_, fun x => contains_iff_existsUnique h, hblock.pairwise_hosts, hhosts, ?_⟩
  · rw [hostBits_of h]
    exact toBits_mask hmask
  · intro x
    rw [contains_iff h, hostBits_of h]
    apply and_congr_right
    intro hx
    exact (agree_iff (by rw [← hx]; exact x.toBits_lt) a.toBits_lt hlen).symm
  · intro hn
    have hcount := hblock.count_le
    have : 2 ^ s.hostBits ≤ 2 ^ 1 := Nat.pow_le_pow_right (by decide) hn
    apply List.eq_nil_iff_forall_not_mem.mpr
    intro x hx
    obtain ⟨i, h1, h2, -⟩ := mem_hosts_iff.mp hx
    omega

/-- An address and a prefix of any length make a subnet unless the prefix is longer than the address, and the
    numbers of that subnet are those of the bits that the prefix leaves. -/
theorem subnet_of_every_length (a : Address) (len : UInt32) :
    (∀ e, Subnet.of a len = .error e ↔ a.family.width < len.toNat ∧ e = .invalidPrefix len.toNat a.family) ∧
    (len.toNat ≤ a.family.width → ∃ s, Subnet.of a len = .ok s ∧
      s.Spans a len a.family.width (a.family.width - len.toNat)) := by
  constructor
  · intro e
    exact of_eq_error_iff
  · intro hlen
    obtain ⟨s, h⟩ := exists_of hlen
    exact ⟨s, h, spans_of h⟩

/-- Among all v6 addresses the last one that can be scanned is `ffff:…:fffd`. -/
theorem hosts_of_all_v6 : (0 : UInt32).toNat ≤ (Address.unspecified .v6).family.width ∧
    ∃ s, Subnet.of (.unspecified .v6) 0 = .ok s ∧ s.count = 2 ^ 128 - 1 ∧
      s.host (2 ^ 128 - 3) ∈ s.hosts ∧ s.host (2 ^ 128 - 2) ∉ s.hosts := by
  refine ⟨by decide, ?_⟩
  obtain ⟨s, hs, hspans⟩ := (subnet_of_every_length (.unspecified .v6) 0).2 (by decide)
  have hblock := block_of hs
  have hbits : s.hostBits = 128 := hostBits_of hs
  have hcount : s.count = 2 ^ 128 - 1 := hspans.count
  refine ⟨s, hs, hcount, ?_, ?_⟩
  · rw [hblock.host_mem_hosts_iff (by rw [hbits]; decide), hcount]
    decide
  · rw [hblock.host_mem_hosts_iff (by rw [hbits]; decide), hcount]
    decide

end Peripheral.Subnet
