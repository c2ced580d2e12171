import Mathlib.Data.List.Pairwise
import Peripheral.Net.Ethernet
import Peripheral.Proofs.Op
import Peripheral.Proofs.Subnet
import Peripheral.Scan.Subnet

/-
  Peripheral.Proofs.Scan.Answers — what there is to find in a subnet.

  `answers` are the identities that the probes of a subnet's candidates find, in the order of
  the candidates. As long as a probe answers with the address it was asked for
  (`Probe.KeepsAddress`; a socket's probe does), they stand in ascending order, each address
  once (`pairwise_answers`), so that sorting them by address gives this one list whatever
  order they were found in (`sortByAddress_eq_answers`).
-/

namespace Peripheral

/-- What a probe finds at an address has that address. -/
def Probe.KeepsAddress (probe : Probe) : Prop :=
  ∀ a port protocol h, probe a port protocol = .found h → h.ip = a

/-- The probe that breaks down at some addresses. -/
def Probe.breakingAt (broken : Address → Bool) (probe : Probe) : Probe :=
  fun a port protocol => if broken a then .broken else probe a port protocol

theorem Net.socketProbe_keepsAddress (net : Network) (resolver : Resolver) (timeoutMs : UInt32) :
    (socketProbe net resolver timeoutMs).KeepsAddress := by
  intro a port protocol h hh
  unfold socketProbe at hh
  split at hh
  · rename_i host hrun
    cases hh
    obtain ⟨_, _, -, hrun⟩ := Op.parts_of_bind_ok (Prod.ext hrun rfl)
    obtain ⟨_, _, -, hrun⟩ := Op.parts_of_bind_ok hrun
    obtain ⟨_, _, -, hrun⟩ := Op.parts_of_bind_ok hrun
    obtain ⟨_, _, -, hrun⟩ := Op.parts_of_bind_ok hrun
    obtain ⟨_, _, -, hrun⟩ := Op.parts_of_bind_ok hrun
    rw [Op.value_of_pure hrun]
  · cases hh

namespace Scan

/-- The identities that a scan of the subnet is to find. -/
def answers (probe : Probe) (s : Subnet) (c : HostCriteria) : List HostIdentity :=
  (candidates s c).filterMap (ask probe c)

variable {probe : Probe} {s : Subnet} {c : HostCriteria}

theorem ask_eq_some_iff {a : Address} {h : HostIdentity} :
    ask probe c a = some h ↔ probe a c.port c.protocol = .found h ∧ c.admits h = true := by
  unfold ask
  cases probe a c.port c.protocol <;> simp [Reply.host?, Option.filter_eq_some_iff]

theorem ip_of_ask (hp : probe.KeepsAddress) {a : Address} {h : HostIdentity} (ha : ask probe c a = some h) :
    h.ip = a :=
  hp _ _ _ _ (ask_eq_some_iff.mp ha).1

theorem mem_candidates_iff {a : Address} :
    a ∈ candidates s c ↔ ∃ i, 1 ≤ i ∧ i + 2 ≤ s.count ∧ s.host i = a ∧ c.allows a = true := by
  rw [candidates, List.mem_filter, Subnet.mem_hosts_iff]
  grind

theorem mem_answers_iff {h : HostIdentity} :
    h ∈ answers probe s c ↔ ∃ i, 1 ≤ i ∧ i + 2 ≤ s.count ∧ c.allows (s.host i) = true ∧
      probe (s.host i) c.port c.protocol = .found h ∧ c.admits h = true := by
  simp only [answers, List.mem_filterMap, mem_candidates_iff, ask_eq_some_iff]
  constructor
  · rintro ⟨_, ⟨i, h1, h2, rfl, ha⟩, hf, hm⟩
    exact ⟨i, h1, h2, ha, hf, hm⟩
  · rintro ⟨i, h1, h2, ha, hf, hm⟩
    exact ⟨_, ⟨i, h1, h2, rfl, ha⟩, hf, hm⟩

theorem pairwise_candidates (hs : s.Block) : (candidates s c).Pairwise (· < ·) := hs.pairwise_hosts.filter _

theorem nodup_candidates (hs : s.Block) : (candidates s c).Nodup :=
  (pairwise_candidates hs).imp fun {a b} hab => by
    rintro rfl
    exact a.lt_irrefl hab

/-- In ascending order, each address once. -/
theorem pairwise_answers (hs : s.Block) (hp : probe.KeepsAddress) :
    (answers probe s c).Pairwise fun x y => x.ip < y.ip := by
  rw [answers, List.pairwise_filterMap]
  refine (pairwise_candidates hs).imp fun hab x hx y hy => ?_
  rwa [ip_of_ask hp hx, ip_of_ask hp hy]

/-! ## Sorting -/

theorem pairwise_sortByAddress (hosts : List HostIdentity) :
    (sortByAddress hosts).Pairwise fun x y => x.ip ≤ y.ip := by
  have htrans : ∀ x y z : HostIdentity, decide (x.ip ≤ y.ip) = true → decide (y.ip ≤ z.ip) = true →
      decide (x.ip ≤ z.ip) = true := fun x y z hxy hyz =>
    decide_eq_true (Address.le_trans (of_decide_eq_true hxy) (of_decide_eq_true hyz))
  have htotal : ∀ x y : HostIdentity, (decide (x.ip ≤ y.ip) || decide (y.ip ≤ x.ip)) = true := fun x y => by
    simpa using Address.le_total x.ip y.ip
  exact (List.pairwise_mergeSort htrans htotal hosts).imp of_decide_eq_true

/-- Sorting brings what was found into one order, whatever order it came in. -/
theorem sortByAddress_eq_of_perm {found l : List HostIdentity} (hl : l.Pairwise fun x y => x.ip < y.ip)
    (h : found.Perm l) : sortByAddress found = l := by
  have hperm : (sortByAddress found).Perm l := (List.mergeSort_perm _ _).trans h
  have hle : l.Pairwise fun x y => x.ip ≤ y.ip :=
    hl.imp fun hxy hyx => Address.lt_irrefl _ (Address.lt_trans hxy hyx)
  -- on the list itself no two identities have one address
  have hone : ∀ x ∈ l, ∀ y ∈ l, x.ip ≤ y.ip → y.ip ≤ x.ip → x = y := by
    intro x hx y hy hxy hyx
    by_contra hne
    have : Std.Symm fun x y : HostIdentity => x.ip < y.ip ∨ y.ip < x.ip := ⟨fun _ _ h => h.symm⟩
    have hdiff : l.Pairwise fun x y => x.ip < y.ip ∨ y.ip < x.ip := hl.imp .inl
    rcases hdiff.forall hx hy hne with h | h
    · exact hyx h
    · exact hxy h
  exact List.Perm.eq_of_pairwise (fun x y hx hy => hone x (hperm.subset hx) y hy)
    (pairwise_sortByAddress found) hle hperm

theorem sortByAddress_eq_answers (hs : s.Block) (hp : probe.KeepsAddress) {found : List HostIdentity}
    (h : found.Perm (answers probe s c)) : sortByAddress found = answers probe s c :=
  sortByAddress_eq_of_perm (pairwise_answers hs hp) h

/-- What a scan returns is what there is to find. -/
theorem hosts_subnet (hs : s.Block) (hp : probe.KeepsAddress) (cap : Nat) :
    (subnet probe cap s c).hosts = answers probe s c := by
  refine sortByAddress_eq_answers hs hp (.of_eq ?_)
  rw [List.flatMap_def, ← List.filterMap_flatten, flatten_chunks, answers]

/-! ## Probes that break down -/

theorem keepsAddress_breakingAt (hp : probe.KeepsAddress) (broken : Address → Bool) :
    (probe.breakingAt broken).KeepsAddress := by
  intro a port protocol h hh
  unfold Probe.breakingAt at hh
  split at hh
  · cases hh
  · exact hp a port protocol h hh

theorem ask_breakingAt (hp : probe.KeepsAddress) (broken : Address → Bool) (a : Address) :
    ask (probe.breakingAt broken) c a = (ask probe c a).filter fun h => !broken h.ip := by
  cases hb : broken a with
  | true =>
    have : ask (probe.breakingAt broken) c a = none := by simp [ask, Probe.breakingAt, hb, Reply.host?]
    rw [this, eq_comm, Option.filter_eq_none_iff]
    intro h hh
    simp [ip_of_ask hp hh, hb]
  | false =>
    have : ask (probe.breakingAt broken) c a = ask probe c a := by simp [ask, Probe.breakingAt, hb]
    rw [this]
    cases ha : ask probe c a with
    | none => rfl
    | some h => simp [Option.filter_some, ip_of_ask hp ha, hb]

/-- A probe that breaks down costs its own host only. -/
theorem answers_breakingAt (hp : probe.KeepsAddress) (broken : Address → Bool) :
    answers (probe.breakingAt broken) s c = (answers probe s c).filter fun h => !broken h.ip := by
  have hask : ask (probe.breakingAt broken) c = fun a => (ask probe c a).filter fun h => !broken h.ip :=
    funext (ask_breakingAt hp broken)
  rw [answers, answers, List.filter_filterMap, hask]

/-! ## Examples to scan -/

/-- A web server at every address. -/
def everywhere : Probe := fun a port protocol => .found ⟨"", a, .zero, port, protocol⟩

theorem keepsAddress_everywhere : everywhere.KeepsAddress := by
  rintro a port protocol h ⟨⟩
  rfl

/-- `10.1.0.0/29`, of the address `10.1.0.3`. -/
def eightAddresses : Subnet := ⟨.v4 #v[10, 1, 0, 3], .v4 #v[255, 255, 255, 248], 29, .v4 #v[10, 1, 0, 0], 8⟩

/-- `10.1.0.0/28`, of the address `10.1.0.12`. -/
def sixteenAddresses : Subnet := ⟨.v4 #v[10, 1, 0, 12], .v4 #v[255, 255, 255, 240], 28, .v4 #v[10, 1, 0, 0], 16⟩

theorem of_eightAddresses : Subnet.of eightAddresses.address 29 = .ok eightAddresses := by decide

theorem of_sixteenAddresses : Subnet.of sixteenAddresses.address 28 = .ok sixteenAddresses := by decide

end Scan

end Peripheral
