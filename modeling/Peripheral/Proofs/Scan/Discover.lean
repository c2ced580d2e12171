import Peripheral.Proofs.Criteria
import Peripheral.Proofs.Distinct
import Peripheral.Proofs.Scan.Answers

/-
  Peripheral.Proofs.Scan.Discover — what a search over all interfaces finds.

  (1) Of the interfaces, those whose subnet was not met before are scanned (`subnetsAfter`).
  A subnet is told by its base and prefix: with them its hosts are the same
  (`hosts_eq_of_key_eq`), so that what is passed over would find nothing new.

  (2) A host that answers the criteria is never passed over by the address pattern
  (`HostCriteria.allows_of_admits`), so a scan finds what there is to find at the hosts of its
  subnet (`mem_answersOn_iff`).

  (3) Subnets may overlap: the probe finds the same identity at the same address, and the
  first one is kept (`hosts_discover`).
-/

namespace Peripheral

/-- What a subnet is told by. -/
def Subnet.key (s : Subnet) : Address × UInt32 := (s.base, s.prefixLen)

/-- The subnet was made from an address and a prefix. -/
def Subnet.Made (s : Subnet) : Prop := ∃ a len, Subnet.of a len = .ok s

/-- The IPv4 addresses that can be scanned from an interface. -/
def Interface.scannable (i : Interface) : List Address := i.ipv4.elim [] Subnet.hosts

/-- The place of the first interface that an address can be scanned from. -/
def firstInterface (is : List Interface) (a : Address) : Nat := is.findIdx fun i => decide (a ∈ i.scannable)

namespace Scan

variable {probe : Probe} {cap : Nat} {c : HostCriteria} {is : List Interface} {s t : Subnet}
  {seen : List (Address × UInt32)}

/-! ## (1) Subnets -/

theorem hosts_eq_of_key_eq (hs : s.Made) (ht : t.Made) (h : s.key = t.key) : s.hosts = t.hosts := by
  obtain ⟨_, _, hs⟩ := hs
  obtain ⟨_, _, ht⟩ := ht
  obtain ⟨hbase, hprefix⟩ := Prod.mk.inj h
  have hcount : s.count = t.count := by
    rw [(Subnet.block_of hs).count_eq, (Subnet.block_of ht).count_eq, hbase, hprefix]
  have hindices : s.hostIndices = t.hostIndices := by
    rw [Subnet.hostIndices, Subnet.hostIndices, Subnet.hostRange, Subnet.hostRange, hcount]
  have hhost : s.host = t.host := by
    funext i
    rw [Subnet.host, Subnet.host, hbase]
  rw [Subnet.hosts, Subnet.hosts, hindices, hhost]

/-- The subnets that are scanned, given those scanned before. -/
def subnetsAfter (seen : List (Address × UInt32)) : List Interface → List Subnet
  | [] => []
  | i :: rest =>
    match i.ipv4 with
    | none => subnetsAfter seen rest
    | some s => if s.key ∈ seen then subnetsAfter seen rest else s :: subnetsAfter (s.key :: seen) rest

theorem hosts_append (r r' : Report) : (r ++ r').hosts = r.hosts ++ r'.hosts := rfl

theorem waves_append (r r' : Report) : (r ++ r').waves = r.waves ++ r'.waves := rfl

/-- A scan over interfaces is the scans of these subnets one after the other. -/
theorem interfaces_eq (seen : List (Address × UInt32)) (is : List Interface) :
    (interfaces probe cap c seen is).hosts =
        ((subnetsAfter seen is).flatMap fun s => (subnet probe cap s c).hosts) ∧
      (interfaces probe cap c seen is).waves =
        (subnetsAfter seen is).flatMap fun s => (subnet probe cap s c).waves := by
  fun_induction interfaces probe cap c seen is with
  | case1 => exact ⟨rfl, rfl⟩
  | case2 seen i rest hi ih =>
    rw [subnetsAfter, hi, hosts_append, waves_append]
    exact ih
  | case3 seen i rest s hi hk ih =>
    have hmem : s.key ∈ seen := List.contains_iff_mem.mp hk
    rw [subnetsAfter, hi]
    simpa only [hmem, if_true] using ih
  | case4 seen i rest s hi hk ih =>
    have hmem : s.key ∉ seen := fun h => hk (List.contains_iff_mem.mpr h)
    rw [subnetsAfter, hi, hosts_append, waves_append, ih.1, ih.2]
    simp only [hmem, if_false, List.flatMap_cons]
    exact ⟨rfl, rfl⟩

theorem subnetsAfter_sublist (seen : List (Address × UInt32)) (is : List Interface) :
    (subnetsAfter seen is).Sublist (is.filterMap (·.ipv4)) := by
  fun_induction subnetsAfter seen is with
  | case1 => exact .slnil
  | case2 seen i rest hi ih => simpa [hi] using ih
  | case3 seen i rest s hi _ ih =>
    rw [List.filterMap_cons_some hi]
    exact ih.cons s
  | case4 seen i rest s hi _ ih =>
    rw [List.filterMap_cons_some hi]
    exact ih.cons_cons s

/-- No subnet is scanned that was scanned before. -/
theorem nodup_subnetsAfter (seen : List (Address × UInt32)) (is : List Interface) :
    ((subnetsAfter seen is).map Subnet.key).Nodup ∧ ∀ s ∈ subnetsAfter seen is, s.key ∉ seen := by
  fun_induction subnetsAfter seen is with
  | case1 => exact ⟨.nil, nofun⟩
  | case2 _ _ _ _ ih => exact ih
  | case3 _ _ _ _ _ _ ih => exact ih
  | case4 seen i rest s hi hk ih =>
    obtain ⟨hnodup, hnew⟩ := ih
    refine ⟨List.nodup_cons.mpr ⟨fun hs => ?_, hnodup⟩, fun t ht => ?_⟩
    · obtain ⟨t, ht, hkey⟩ := List.mem_map.mp hs
      exact hnew t ht (hkey ▸ List.mem_cons_self)
    · rcases List.mem_cons.mp ht with rfl | ht
      · exact hk
      · exact fun h => hnew t ht (List.mem_cons_of_mem _ h)

/-- Every subnet of an interface is scanned, now or before. -/
theorem key_mem_subnetsAfter (seen : List (Address × UInt32)) (is : List Interface) {i : Interface} (hi : i ∈ is)
    (hs : i.ipv4 = some s) : s.key ∈ seen ∨ s.key ∈ (subnetsAfter seen is).map Subnet.key := by
  fun_induction subnetsAfter seen is with
  | case1 => cases hi
  | case2 seen j rest hj ih =>
    rcases List.mem_cons.mp hi with rfl | hi
    · rw [hj] at hs
      cases hs
    · exact ih hi
  | case3 seen j rest t hj hk ih =>
    rcases List.mem_cons.mp hi with rfl | hi
    · rw [hj] at hs
      cases hs
      exact .inl hk
    · exact ih hi
  | case4 seen j rest t hj hk ih =>
    rw [List.map_cons, List.mem_cons]
    rcases List.mem_cons.mp hi with rfl | hi
    · rw [hj] at hs
      cases hs
      exact .inr (.inl rfl)
    · rcases ih hi with h | h
      · exact (List.mem_cons.mp h).elim (fun h => .inr (.inl h)) .inl
      · exact .inr (.inr h)

/-! ## (2) What there is to find at an interface -/

/-- What a scan of the interface's subnet is to find. -/
def answersOn (probe : Probe) (c : HostCriteria) (i : Interface) : List HostIdentity :=
  i.ipv4.elim [] fun s => answers probe s c

theorem answers_eq_of_key_eq (hs : s.Made) (ht : t.Made) (h : s.key = t.key) :
    answers probe s c = answers probe t c := by
  rw [answers, answers, candidates, candidates, hosts_eq_of_key_eq hs ht h]

theorem mem_answersOn_iff (hp : probe.KeepsAddress) (hscan : c.isSubnetScan = true) {i : Interface}
    {h : HostIdentity} : h ∈ answersOn probe c i ↔
      h.ip ∈ i.scannable ∧ probe h.ip c.port c.protocol = .found h ∧ c.admits h = true := by
  unfold answersOn Interface.scannable
  cases i.ipv4 with
  | none => simp
  | some s =>
    simp only [Option.elim_some, mem_answers_iff, Subnet.mem_hosts_iff]
    constructor
    · rintro ⟨k, h1, h2, -, hfound, hadmits⟩
      have hip := hp _ _ _ _ hfound
      exact ⟨⟨k, h1, h2, hip.symm⟩, hip.symm ▸ hfound, hadmits⟩
    · rintro ⟨⟨k, h1, h2, hk⟩, hfound, hadmits⟩
      rw [← hk] at hfound
      exact ⟨k, h1, h2, hk ▸ HostCriteria.allows_of_admits hscan hadmits, hfound, hadmits⟩

/-! ## (3) The first of each identity -/

/-- Passing over the subnets that were scanned before loses nothing. -/
theorem eraseDups_answers_subnetsAfter (his : ∀ i ∈ is, ∀ s, i.ipv4 = some s → s.Made)
    (before : List HostIdentity) (hbefore : ∀ s : Subnet, s.Made → s.key ∈ seen → answers probe s c ⊆ before) :
    (before ++ (subnetsAfter seen is).flatMap fun s => answers probe s c).eraseDups =
      (before ++ is.flatMap (answersOn probe c)).eraseDups := by
  fun_induction subnetsAfter seen is generalizing before with
  | case1 => rfl
  | case2 seen i rest hi ih =>
    rw [List.flatMap_cons, answersOn, hi]
    exact ih (fun j hj => his j (List.mem_cons_of_mem _ hj)) before hbefore
  | case3 seen i rest s hi hk ih =>
    have hs := his i List.mem_cons_self s hi
    rw [List.flatMap_cons, answersOn, hi, Option.elim_some, eraseDups_append_of_subset (hbefore s hs hk)]
    exact ih (fun j hj => his j (List.mem_cons_of_mem _ hj)) before hbefore
  | case4 seen i rest s hi hk ih =>
    have hs := his i List.mem_cons_self s hi
    rw [List.flatMap_cons, List.flatMap_cons, answersOn, hi, Option.elim_some, ← List.append_assoc,
      ← List.append_assoc]
    refine ih (fun j hj => his j (List.mem_cons_of_mem _ hj)) _ fun t ht hkey => ?_
    rcases List.mem_cons.mp hkey with hkey | hkey
    · rw [answers_eq_of_key_eq ht hs hkey]
      exact List.subset_append_right _ _
    · exact List.Subset.trans (hbefore t ht hkey) (List.subset_append_left _ _)

theorem found_of_mem_answers (hp : probe.KeepsAddress) {h : HostIdentity} (hh : h ∈ answers probe s c) :
    probe h.ip c.port c.protocol = .found h := by
  obtain ⟨k, -, -, -, hfound, -⟩ := mem_answers_iff.mp hh
  rwa [hp _ _ _ _ hfound]

/-- Ordered by the first interface that the address can be scanned from, and by address within it. -/
def InOrder (is : List Interface) (x y : HostIdentity) : Prop :=
  firstInterface is x.ip < firstInterface is y.ip ∨
    firstInterface is x.ip = firstInterface is y.ip ∧ x.ip < y.ip

theorem not_inOrder_self (x : HostIdentity) : ¬ InOrder is x x := by
  rintro (h | ⟨-, h⟩)
  · exact Nat.lt_irrefl _ h
  · exact x.ip.lt_irrefl h

theorem firstHolding_answersOn (hp : probe.KeepsAddress) (hscan : c.isSubnetScan = true) {h : HostIdentity}
    (hfound : probe h.ip c.port c.protocol = .found h) (hadmits : c.admits h = true) :
    firstHolding (is.map (answersOn probe c)) h = firstInterface is h.ip := by
  have hholds : ((fun l => decide (h ∈ l)) ∘ answersOn probe c) = fun i => decide (h.ip ∈ i.scannable) := by
    funext i
    simp [mem_answersOn_iff hp hscan, hfound, hadmits]
  rw [firstHolding, List.findIdx_map, hholds, firstInterface]

section Scans

variable (his : ∀ i ∈ is, ∀ s, i.ipv4 = some s → s.Made) (hp : probe.KeepsAddress)
  (hport : c.port ≠ 0) (hscan : c.isSubnetScan = true)

include his hp hport hscan

/-- A search over interfaces keeps each identity where it is met first. -/
theorem hosts_discover (cap : Nat) :
    (discover probe cap is c).hosts = (is.flatMap (answersOn probe c)).eraseDups := by
  have hscanned : (interfaces probe cap c [] is).hosts =
      (subnetsAfter [] is).flatMap fun s => answers probe s c := by
    rw [(interfaces_eq [] is).1, List.flatMap_def, List.flatMap_def]
    refine congrArg List.flatten (List.map_congr_left fun s hs => ?_)
    obtain ⟨i, hi, hs⟩ := List.mem_filterMap.mp ((subnetsAfter_sublist [] is).subset hs)
    obtain ⟨_, _, hof⟩ := his i hi s hs
    exact hosts_subnet (Subnet.block_of hof) hp cap
  have hfound : ∀ h ∈ (interfaces probe cap c [] is).hosts, probe h.ip c.port c.protocol = .found h := by
    intro h hh
    rw [hscanned] at hh
    obtain ⟨s, -, hh⟩ := List.mem_flatMap.mp hh
    exact found_of_mem_answers hp hh
  simp only [discover, hport, hscan, if_false, Bool.not_true, Bool.false_eq_true]
  -- the probe finds one identity at an address, so the key tells them apart
  rw [distinct_eq_eraseDups fun x hx y hy hkey => ?_, hscanned]
  · exact eraseDups_answers_subnetsAfter his [] nofun
  · have hip : x.ip = y.ip := (Prod.mk.inj (Prod.mk.inj hkey).2).1
    have := hfound x hx
    rw [hip, hfound y hy] at this
    exact (Reply.found.inj this).symm

theorem mem_hosts_discover_iff {h : HostIdentity} :
    h ∈ (discover probe cap is c).hosts ↔
      (∃ i ∈ is, h.ip ∈ i.scannable) ∧ probe h.ip c.port c.protocol = .found h ∧ c.admits h = true := by
  rw [hosts_discover his hp hport hscan cap, List.mem_eraseDups, List.mem_flatMap]
  simp only [mem_answersOn_iff hp hscan]
  constructor
  · rintro ⟨i, hi, hheld, hanswers⟩
    exact ⟨⟨i, hi, hheld⟩, hanswers⟩
  · rintro ⟨⟨i, hi, hheld⟩, hanswers⟩
    exact ⟨i, hi, hheld, hanswers⟩

theorem pairwise_hosts_discover : (discover probe cap is c).hosts.Pairwise (InOrder is) := by
  have hascending : ∀ l ∈ is.map (answersOn probe c), l.Pairwise fun x y => x.ip < y.ip := by
    intro l hl
    obtain ⟨i, hi, rfl⟩ := List.mem_map.mp hl
    unfold answersOn
    cases hs : i.ipv4 with
    | none => exact .nil
    | some s =>
      obtain ⟨_, _, hof⟩ := his i hi s hs
      exact pairwise_answers (Subnet.block_of hof) hp
  have hordered := pairwise_eraseDups_flatten hascending
  rw [← List.flatMap_def, ← hosts_discover his hp hport hscan cap] at hordered
  refine hordered.imp_of_mem fun hx hy hxy => ?_
  obtain ⟨-, hxfound, hxadmits⟩ := (mem_hosts_discover_iff his hp hport hscan).mp hx
  obtain ⟨-, hyfound, hyadmits⟩ := (mem_hosts_discover_iff his hp hport hscan).mp hy
  rwa [firstHolding_answersOn hp hscan hxfound hxadmits, firstHolding_answersOn hp hscan hyfound hyadmits] at hxy

end Scans

/-! ## Every host once -/

/-- The addresses that a search may ask. -/
inductive Candidate (is : List Interface) (c : HostCriteria) : Address → Prop
  /-- The address that the criteria name, wherever it is. -/
  | named {a : Address} : c.port ≠ 0 → c.isSubnetScan = false → Address.parse (Text.strip c.ip) = .ok a →
      Candidate is c a
  /-- A host of the IPv4 subnet of an interface that is neither its first nor its last address. -/
  | inSubnet {i : Interface} {s : Subnet} {k : Nat} : c.port ≠ 0 → c.isSubnetScan = true → i ∈ is →
      i.ipv4 = some s → 1 ≤ k → k + 2 ≤ s.count → Candidate is c (s.host k)

theorem mem_scannable_iff {i : Interface} {a : Address} :
    a ∈ i.scannable ↔ ∃ s, i.ipv4 = some s ∧ ∃ k, 1 ≤ k ∧ k + 2 ≤ s.count ∧ s.host k = a := by
  unfold Interface.scannable
  cases i.ipv4 <;> simp [Subnet.mem_hosts_iff]

theorem candidate_iff_of_named (hport : c.port ≠ 0) (hscan : c.isSubnetScan = false) {a : Address} :
    Candidate is c a ↔ Address.parse (Text.strip c.ip) = .ok a := by
  refine ⟨fun h => ?_, .named hport hscan⟩
  cases h with
  | named _ _ h => exact h
  | inSubnet _ h => cases hscan.symm.trans h

theorem candidate_iff_of_scan (hport : c.port ≠ 0) (hscan : c.isSubnetScan = true) {a : Address} :
    Candidate is c a ↔ ∃ i ∈ is, a ∈ i.scannable := by
  constructor
  · intro h
    cases h with
    | named _ h => cases hscan.symm.trans h
    | inSubnet _ _ hi hs h1 h2 => exact ⟨_, hi, mem_scannable_iff.mpr ⟨_, hs, _, h1, h2, rfl⟩⟩
  · rintro ⟨i, hi, ha⟩
    obtain ⟨s, hs, k, h1, h2, rfl⟩ := mem_scannable_iff.mp ha
    exact .inSubnet hport hscan hi hs h1 h2

/-- A search that does not scan asks at most one address. -/
theorem hosts_discover_eq_ask (probe : Probe) (cap : Nat) (is : List Interface)
    (h : c.port = 0 ∨ c.isSubnetScan = false) :
    (discover probe cap is c).hosts = [] ∧ (∀ a, ¬ Candidate is c a) ∨
      ∃ a, (discover probe cap is c).hosts = (ask probe c a).toList ∧ ∀ b, Candidate is c b ↔ b = a := by
  by_cases hport : c.port = 0
  · refine .inl ⟨by rw [discover, if_pos hport], fun a ha => ?_⟩
    cases ha with
    | named h => exact h hport
    | inSubnet h => exact h hport
  have hscan : c.isSubnetScan = false := h.resolve_left hport
  rw [discover, if_neg hport, if_pos (by simp [hscan])]
  cases ha : Address.parse (Text.strip c.ip) with
  | error e =>
    refine .inl ⟨rfl, fun a hc => ?_⟩
    cases ha.symm.trans ((candidate_iff_of_named hport hscan).mp hc)
  | ok a =>
    refine .inr ⟨a, rfl, fun b => ?_⟩
    rw [candidate_iff_of_named hport hscan, ha, Except.ok.injEq, eq_comm]

theorem mem_hosts_discover_iff_candidate (his : ∀ i ∈ is, ∀ s, i.ipv4 = some s → s.Made)
    (hp : probe.KeepsAddress) {h : HostIdentity} :
    h ∈ (discover probe cap is c).hosts ↔
      c.admits h = true ∧ ∃ a, Candidate is c a ∧ probe a c.port c.protocol = .found h := by
  by_cases hscans : c.port = 0 ∨ c.isSubnetScan = false
  · rcases hosts_discover_eq_ask probe cap is hscans with ⟨hhosts, hnone⟩ | ⟨a, hhosts, hone⟩
    · simp [hhosts, hnone]
    · rw [hhosts, Option.mem_toList, ask_eq_some_iff, and_comm]
      simp only [hone, exists_eq_left]
  · rw [not_or, Bool.not_eq_false] at hscans
    obtain ⟨hport, hscan⟩ := hscans
    rw [mem_hosts_discover_iff his hp hport hscan]
    simp only [candidate_iff_of_scan hport hscan]
    constructor
    · rintro ⟨hheld, hfound, hadmits⟩
      exact ⟨hadmits, h.ip, hheld, hfound⟩
    · rintro ⟨hadmits, a, hheld, hfound⟩
      rw [← hp _ _ _ _ hfound] at hheld hfound
      exact ⟨hheld, hfound, hadmits⟩

/-- A search finds exactly the answers of the candidates that the criteria admit, each once, by the first
    interface that they can be scanned from and by address within it. Subnets may overlap; each is scanned
    once. -/
theorem discover_finds_every_host_once (his : ∀ i ∈ is, ∀ s, i.ipv4 = some s → ∃ a len, Subnet.of a len = .ok s)
    (hp : probe.KeepsAddress) (c : HostCriteria) (requested : Nat) :
    (∀ h, h ∈ (discover probe (ScanLimits.cap requested) is c).hosts ↔
      c.admits h = true ∧ ∃ a, Candidate is c a ∧ probe a c.port c.protocol = .found h) ∧
    (discover probe (ScanLimits.cap requested) is c).hosts.Nodup ∧
    (discover probe (ScanLimits.cap requested) is c).hosts.Pairwise (InOrder is) ∧
    (c.port ≠ 0 → c.isSubnetScan = true → ∃ scanned : List Subnet,
      scanned.Sublist (is.filterMap (·.ipv4)) ∧
      (scanned.map fun s => (s.base, s.prefixLen)).Nodup ∧
      (∀ i ∈ is, ∀ s, i.ipv4 = some s → (s.base, s.prefixLen) ∈ scanned.map fun s => (s.base, s.prefixLen)) ∧
      (discover probe (ScanLimits.cap requested) is c).waves =
        scanned.flatMap fun s => (subnet probe (ScanLimits.cap requested) s c).waves) := by
  have hpair : (discover probe (ScanLimits.cap requested) is c).hosts.Pairwise (InOrder is) := by
    by_cases hscans : c.port = 0 ∨ c.isSubnetScan = false
    · rcases hosts_discover_eq_ask probe (ScanLimits.cap requested) is hscans with ⟨hhosts, -⟩ | ⟨a, hhosts, -⟩
      · exact hhosts ▸ .nil
      · rw [hhosts]
        cases ask probe c a <;> simp
    · rw [not_or, Bool.not_eq_false] at hscans
      exact pairwise_hosts_discover his hp hscans.1 hscans.2
  refine ⟨fun h => ?_, ?_, hpair, fun hport hscan => ⟨subnetsAfter [] is, subnetsAfter_sublist [] is,
    (nodup_subnetsAfter [] is).1, fun i hi s hs => ?_, ?_⟩⟩
  · exact mem_hosts_discover_iff_candidate his hp
  · exact hpair.imp fun {x y} hxy => by
      rintro rfl
      exact not_inOrder_self x hxy
  · exact (key_mem_subnetsAfter [] is hi hs).resolve_left nofun
  · simp only [discover, hport, hscan, if_false, Bool.not_true, Bool.false_eq_true, (interfaces_eq [] is).2]

/-- The subnet of the first interface lies within that of the second. -/
def nested : List Interface :=
  [⟨"eth0", "lan", .ofNats [2, 0, 0, 0, 0, 1], some eightAddresses, none⟩,
    ⟨"eth1", "lab", .ofNats [2, 0, 0, 0, 0, 2], some sixteenAddresses, none⟩]

/-- The last address of the inner subnet is an ordinary host of the outer one. -/
theorem discover_finds_broadcast_of_inner :
    (∀ i ∈ nested, ∀ s, i.ipv4 = some s → ∃ a len, Subnet.of a len = .ok s) ∧ everywhere.KeepsAddress ∧
      ⟨"", eightAddresses.broadcast, .zero, 80, .tcp⟩ ∈
        (discover everywhere (ScanLimits.cap 2) nested (.scan 80 .tcp)).hosts := by
  have hmade : ∀ i ∈ nested, ∀ s, i.ipv4 = some s → ∃ a len, Subnet.of a len = .ok s := by
    intro i hi s hs
    simp only [nested, List.mem_cons, List.not_mem_nil, or_false] at hi
    rcases hi with rfl | rfl
    · cases hs
      exact ⟨_, _, of_eightAddresses⟩
    · cases hs
      exact ⟨_, _, of_sixteenAddresses⟩
  refine ⟨hmade, keepsAddress_everywhere,
    ((discover_finds_every_host_once hmade keepsAddress_everywhere (.scan 80 .tcp) 2).1 _).mpr ⟨?_, ?_⟩⟩
  · decide +kernel
  · -- it is the seventh address of the outer subnet after its first
    have houter : nested[1] ∈ nested := by decide
    exact ⟨_, .inSubnet (k := 7) (by decide) (by decide +kernel) houter rfl (by decide) (by decide), rfl⟩

end Scan

end Peripheral
