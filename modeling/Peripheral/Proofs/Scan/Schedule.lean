import Mathlib.Data.List.Basic
import Peripheral.Proofs.Scan.Answers
import Peripheral.Scan.Schedule

/-
  Peripheral.Proofs.Scan.Schedule — a scan does the same in every order of its steps.

  (1) Every run ends (`wellFounded_step`, `exists_step`): each step leaves less work, and only
  a scan that is over has no step left.

  (2) What is launched (`Ordered`): the probes launched so far, and then the allowed hosts
  ahead, are the candidates in their order.

  (3) What is found (`Collected`): what was found so far, and what the running probes will
  find, is what the launched probes find, in some order.

  (4) How much is out (`Sized`): only probes of the wave that is out have not been taken back,
  and a wave is taken back when it has as many probes as the cap says.

  (5) When a scan is over, sorting has taken the order of the answers away: the result is what
  there is to find (`result_eq_answers`).

  (6) The waves cut the launched hosts into runs of the cap (`chunks_launched`), and no probe
  of an earlier wave is in flight (`orderly`).
-/

namespace Peripheral.Scan.Schedule

variable {probe : Probe} {cap : Nat} {c : HostCriteria} {hosts : List Address} {s t : State}

/-! ## (1) Every run ends -/

def Phase.rank : Phase → Nat
  | .joining => 3
  | .launching => 2
  | .closing => 1
  | .done => 0

/-- A bound on the steps to come. -/
def State.work (s : State) : Nat :=
  5 * s.ahead.length + 3 * s.running.length + 2 * s.leaving.length + s.ended.length + s.phase.rank

theorem work_lt (h : Step probe cap c s t) : t.work < s.work := by
  cases h with
  | skip a rest hp ha _ =>
    simp only [State.work, ha, List.length_cons]
    omega
  | launch a rest hp ha _ =>
    have : (if cap ≤ s.out + 1 then Phase.joining else .launching).rank ≤ 3 := by split <;> decide
    simp only [State.work, ha, hp, List.length_cons, List.length_append, List.length_nil, Phase.rank] at *
    omega
  | answer a ha _ =>
    have := List.length_erase_add_one ha
    simp only [State.work, List.length_append, List.length_cons, List.length_nil]
    omega
  | finish a ha =>
    have := List.length_erase_add_one ha
    simp only [State.work, List.length_append, List.length_cons, List.length_nil]
    omega
  | breakDown a ha _ =>
    have := List.length_erase_add_one ha
    simp only [State.work, List.length_append, List.length_cons, List.length_nil]
    omega
  | join a _ ha =>
    have := List.length_erase_add_one ha
    simp only [State.work]
    omega
  | resume hp _ => simp [State.work, hp, Phase.rank]
  | close hp _ => simp [State.work, hp, Phase.rank]
  | leave hp _ => simp [State.work, hp, Phase.rank]

theorem wellFounded_step : WellFounded fun t s => Step probe cap c s t :=
  Subrelation.wf work_lt (measure State.work).wf

/-- A probe that was not taken back can answer, end or be taken back. -/
theorem exists_step_of_out (hp : s.phase = .joining ∨ s.phase = .closing) (ho : s.out ≠ 0) :
    ∃ t, Step probe cap c s t := by
  cases hr : s.running with
  | cons a _ =>
    have ha : a ∈ s.running := by simp [hr]
    by_cases hb : probe a c.port c.protocol = .broken
    · exact ⟨_, .breakDown s a ha hb⟩
    · exact ⟨_, .answer s a ha hb⟩
  | nil =>
    cases hl : s.leaving with
    | cons a _ => exact ⟨_, .finish s a (by simp [hl])⟩
    | nil =>
      cases he : s.ended with
      | cons a _ => exact ⟨_, .join s a hp (by simp [he])⟩
      | nil => exact absurd (by simp [State.out, hr, hl, he]) ho

/-- Only a scan that is over has no step left. -/
theorem exists_step (h : s.phase ≠ .done) : ∃ t, Step probe cap c s t := by
  cases hp : s.phase with
  | launching =>
    cases ha : s.ahead with
    | nil => exact ⟨_, .close s hp ha⟩
    | cons a rest =>
      cases hc : c.allows a with
      | false => exact ⟨_, .skip s a rest hp ha hc⟩
      | true => exact ⟨_, .launch s a rest hp ha hc⟩
  | joining =>
    by_cases ho : s.out = 0
    · exact ⟨_, .resume s hp ho⟩
    · exact exists_step_of_out (.inl hp) ho
  | closing =>
    by_cases ho : s.out = 0
    · exact ⟨_, .leave s hp ho⟩
    · exact exists_step_of_out (.inr hp) ho
  | done => exact absurd hp h

/-! ## (2) What is launched -/

/-- The probes launched and the allowed hosts ahead are all the allowed hosts, in order. -/
def Ordered (c : HostCriteria) (hosts : List Address) (s : State) : Prop :=
  s.launched ++ s.ahead.filter c.allows = hosts.filter c.allows

theorem ordered_step (h : Step probe cap c s t) (hs : Ordered c hosts s) : Ordered c hosts t := by
  unfold Ordered State.launched at *
  cases h with
  | skip a rest _ ha hc => simpa [ha, hc] using hs
  | launch a rest _ ha hc => simpa [ha, hc] using hs
  | resume => simpa using hs
  | answer | finish | breakDown | join | close | leave => exact hs

theorem ordered (h : Reach probe cap c hosts s) : Ordered c hosts s := by
  induction h with
  | start => rfl
  | step _ hst ih => exact ordered_step hst ih

/-! ## (3) What is found -/

/-- What was found and what the running probes will find is what the launched probes find. -/
def Collected (probe : Probe) (c : HostCriteria) (s : State) : Prop :=
  (s.found ++ s.running.filterMap (ask probe c)).Perm (s.launched.filterMap (ask probe c))

theorem ask_eq_none_of_broken {a : Address} (h : probe a c.port c.protocol = .broken) : ask probe c a = none := by
  simp [ask, h, Reply.host?]

/-- A probe taken out of the running ones takes along what it will find. -/
theorem perm_erase (probe : Probe) (c : HostCriteria) {a : Address} (ha : a ∈ s.running) :
    (s.running.filterMap (ask probe c)).Perm
      ((ask probe c a).toList ++ (s.running.erase a).filterMap (ask probe c)) := by
  have := (List.perm_cons_erase ha).filterMap (ask probe c)
  rw [List.filterMap_cons] at this
  cases h : ask probe c a <;> simpa [h] using this

theorem collected_step (h : Step probe cap c s t) (hs : Collected probe c s) : Collected probe c t := by
  unfold Collected State.launched at *
  cases h with
  | launch a rest _ _ _ =>
    simp only [List.filterMap_append, ← List.append_assoc] at hs ⊢
    exact hs.append_right _
  | answer a ha _ =>
    refine .trans ?_ hs
    rw [List.append_assoc]
    exact (perm_erase probe c ha).symm.append_left _
  | breakDown a ha hb =>
    refine .trans ?_ hs
    have := perm_erase probe c ha
    rw [ask_eq_none_of_broken hb] at this
    exact this.symm.append_left _
  | resume => simpa using hs
  | skip | finish | join | close | leave => exact hs

theorem collected (h : Reach probe cap c hosts s) : Collected probe c s := by
  induction h with
  | start => exact .refl _
  | step _ hst ih => exact collected_step hst ih

/-! ## (4) How much is out -/

/-- What the phases have to do with the number of probes that are out. -/
structure Sized (cap : Nat) (s : State) : Prop where
  /-- Every probe that was not taken back is one of the wave. -/
  inWave : ∀ a, a ∈ s.running ∨ a ∈ s.leaving ∨ a ∈ s.ended → a ∈ s.wave
  out_le : s.out ≤ s.wave.length
  full : ∀ w ∈ s.past, w.length = cap
  launching : s.phase = .launching → s.out = s.wave.length ∧ s.wave.length < cap
  joining : s.phase = .joining → s.wave.length = cap
  closing : s.phase = .closing ∨ s.phase = .done → s.ahead = [] ∧ s.wave.length < cap
  allBack : s.phase = .done → s.out = 0

theorem Sized.length_wave_le (h : Sized cap s) : s.wave.length ≤ cap := by
  cases hp : s.phase with
  | launching => exact Nat.le_of_lt (h.launching hp).2
  | joining => exact Nat.le_of_eq (h.joining hp)
  | closing => exact Nat.le_of_lt (h.closing (.inl hp)).2
  | done => exact Nat.le_of_lt (h.closing (.inr hp)).2

/-- The probes of a wave take turns in three lists: as many are out as before. -/
theorem Sized.moved (h : Sized cap s) (hout : t.out = s.out) (hphase : t.phase = s.phase)
    (hahead : t.ahead = s.ahead) (hwave : t.wave = s.wave) (hpast : t.past = s.past)
    (hmem : ∀ a, a ∈ t.running ∨ a ∈ t.leaving ∨ a ∈ t.ended → a ∈ s.running ∨ a ∈ s.leaving ∨ a ∈ s.ended) :
    Sized cap t := by
  refine ⟨fun a ha => ?_, ?_, ?_, ?_, ?_, ?_, ?_⟩ <;> simp only [hout, hphase, hahead, hwave, hpast]
  · exact h.inWave a (hmem a ha)
  · exact h.out_le
  · exact h.full
  · exact h.launching
  · exact h.joining
  · exact h.closing
  · exact h.allBack

theorem mem_of_mem_move {l m : List Address} {a x : Address} (ha : a ∈ l) (hx : x ∈ l.erase a ∨ x ∈ m ++ [a]) :
    x ∈ l ∨ x ∈ m := by
  rcases hx with hx | hx
  · exact .inl (List.mem_of_mem_erase hx)
  · rcases List.mem_append.mp hx with hx | hx
    · exact .inr hx
    · rw [List.mem_singleton.mp hx]
      exact .inl ha

theorem sized_step (hcap : 0 < cap) (h : Step probe cap c s t) (hs : Sized cap s) : Sized cap t := by
  cases h with
  | skip a rest hp ha _ =>
    refine ⟨hs.inWave, hs.out_le, hs.full, hs.launching, hs.joining, fun hover => ?_, hs.allBack⟩
    rcases hover with h | h <;> exact absurd (hp.symm.trans h) (by decide)
  | launch a rest hp ha _ =>
    obtain ⟨hout, hlt⟩ := hs.launching hp
    have hmem : ∀ x, x ∈ s.running ++ [a] ∨ x ∈ s.leaving ∨ x ∈ s.ended → x ∈ s.wave ++ [a] := by
      intro x hx
      rw [List.mem_append, or_right_comm] at hx
      exact List.mem_append.mpr (hx.imp_left (hs.inWave x))
    have hlen : (s.running ++ [a]).length + s.leaving.length + s.ended.length = (s.wave ++ [a]).length := by
      simp only [State.out, List.length_append, List.length_singleton] at hout ⊢
      omega
    have hwave : (s.wave ++ [a]).length = s.out + 1 := by simp [hout]
    by_cases hfull : cap ≤ s.out + 1
    · rw [if_pos hfull]
      exact ⟨hmem, Nat.le_of_eq hlen, hs.full, nofun, fun _ => by simp only; omega, nofun, nofun⟩
    · rw [if_neg hfull]
      exact ⟨hmem, Nat.le_of_eq hlen, hs.full, fun _ => ⟨hlen, by simp only; omega⟩, nofun, nofun, nofun⟩
  | answer a ha _ =>
    have := List.length_erase_add_one ha
    refine hs.moved ?_ rfl rfl rfl rfl fun x hx => ?_
    · simp only [State.out, List.length_append, List.length_singleton]
      omega
    · rw [← or_assoc] at hx ⊢
      exact hx.imp_left (mem_of_mem_move ha)
  | finish a ha =>
    have := List.length_erase_add_one ha
    refine hs.moved ?_ rfl rfl rfl rfl fun x hx => ?_
    · simp only [State.out, List.length_append, List.length_singleton]
      omega
    · exact hx.imp_right (mem_of_mem_move ha)
  | breakDown a ha _ =>
    have := List.length_erase_add_one ha
    refine hs.moved ?_ rfl rfl rfl rfl fun x hx => ?_
    · simp only [State.out, List.length_append, List.length_singleton]
      omega
    · rw [or_left_comm] at hx ⊢
      exact hx.imp_right (mem_of_mem_move ha)
  | join a hp ha =>
    have hlen := List.length_erase_add_one ha
    have hle := hs.out_le
    refine ⟨fun x hx => ?_, ?_, hs.full, fun hph => ?_, hs.joining, hs.closing, fun hph => ?_⟩
    · exact hs.inWave x (hx.imp_right (.imp_right List.mem_of_mem_erase))
    · simp only [State.out] at hle ⊢
      omega
    · rcases hp with hp | hp <;> exact absurd (hp.symm.trans hph) (by decide)
    · rcases hp with hp | hp <;> exact absurd (hp.symm.trans hph) (by decide)
  | resume hp ho =>
    have hnone : s.running = [] ∧ s.leaving = [] ∧ s.ended = [] := by
      simp only [State.out] at ho
      exact ⟨List.eq_nil_of_length_eq_zero (by omega), List.eq_nil_of_length_eq_zero (by omega),
        List.eq_nil_of_length_eq_zero (by omega)⟩
    refine ⟨fun x hx => ?_, Nat.le_of_eq ho, fun w hw => ?_, fun _ => ⟨ho, hcap⟩, nofun, nofun, nofun⟩
    · simp [hnone] at hx
    · rcases List.mem_append.mp hw with hw | hw
      · exact hs.full w hw
      · rw [List.mem_singleton.mp hw, hs.joining hp]
  | close hp ha =>
    obtain ⟨-, hlt⟩ := hs.launching hp
    exact ⟨hs.inWave, hs.out_le, hs.full, nofun, nofun, fun _ => ⟨ha, hlt⟩, nofun⟩
  | leave hp ho =>
    exact ⟨hs.inWave, hs.out_le, hs.full, nofun, nofun, fun _ => hs.closing (.inl hp), fun _ => ho⟩

theorem sized (hcap : 0 < cap) (h : Reach probe cap c hosts s) : Sized cap s := by
  induction h with
  | start => exact ⟨by simp, Nat.le_refl _, nofun, fun _ => ⟨rfl, hcap⟩, nofun, nofun, nofun⟩
  | step _ hst ih => exact sized_step hcap hst ih

/-! ## (5) One result in every order -/

/-- Once a scan is over, all allowed hosts were launched and no probe is out. -/
theorem over_of_reach (hcap : 0 < cap) (h : Reach probe cap c hosts s) (hover : s.phase = .done) :
    s.launched = hosts.filter c.allows ∧ s.running = [] ∧ s.leaving = [] := by
  have hsized := sized hcap h
  have hout := hsized.allBack hover
  have hlaunched := ordered h
  unfold Ordered at hlaunched
  rw [(hsized.closing (.inr hover)).1, List.filter_nil, List.append_nil] at hlaunched
  simp only [State.out] at hout
  exact ⟨hlaunched, List.eq_nil_of_length_eq_zero (by omega), List.eq_nil_of_length_eq_zero (by omega)⟩

/-- A run that is over returns what there is to find. -/
theorem result_eq_answers {subnet : Subnet} (hs : subnet.Block) (hp : probe.KeepsAddress) (hcap : 0 < cap)
    (h : Reach probe cap c subnet.hosts t) (hover : t.phase = .done) : t.result = answers probe subnet c := by
  obtain ⟨hlaunched, hrunning, -⟩ := over_of_reach hcap h hover
  refine sortByAddress_eq_answers hs hp ?_
  have hfound := collected h
  unfold Collected at hfound
  rwa [hrunning, List.filterMap_nil, List.append_nil, hlaunched] at hfound

theorem cap_pos (requested : Nat) : 0 < ScanLimits.cap requested := by
  rw [ScanLimits.cap]
  omega

/-- A scan of a subnet returns one list, whatever its cap and the order of its steps: the answers of the
    allowed hosts that the criteria admit, in strictly ascending order. A probe that breaks down costs its
    own host only. -/
theorem one_result_in_every_order {a : Address} {len : UInt32} {subnet : Subnet}
    (hof : Subnet.of a len = .ok subnet) (hp : probe.KeepsAddress) (c : HostCriteria) :
    ((answers probe subnet c).Pairwise fun x y => x.ip < y.ip) ∧
    (∀ x, x ∈ answers probe subnet c ↔ ∃ i, 1 ≤ i ∧ i + 2 ≤ subnet.count ∧ c.allows (subnet.host i) = true ∧
      probe (subnet.host i) c.port c.protocol = .found x ∧ c.admits x = true) ∧
    ∀ requested : Nat,
      (Scan.subnet probe (ScanLimits.cap requested) subnet c).hosts = answers probe subnet c ∧
      (WellFounded fun u t => Step probe (ScanLimits.cap requested) c t u) ∧
      (∀ t, Reach probe (ScanLimits.cap requested) c subnet.hosts t →
        (t.phase = .done → t.result = answers probe subnet c) ∧
        (t.phase ≠ .done → ∃ u, Step probe (ScanLimits.cap requested) c t u)) ∧
      ∀ (broken : Address → Bool) (t : State),
        Reach (probe.breakingAt broken) (ScanLimits.cap requested) c subnet.hosts t → t.phase = .done →
          t.result = (answers probe subnet c).filter fun x => !broken x.ip := by
  have hs := Subnet.block_of hof
  refine ⟨pairwise_answers hs hp, fun x => mem_answers_iff, fun requested => ⟨?_, ?_, ?_, ?_⟩⟩
  · exact hosts_subnet hs hp _
  · exact wellFounded_step
  · intro t ht
    exact ⟨result_eq_answers hs hp (cap_pos requested) ht, exists_step⟩
  · intro broken t ht hover
    rw [result_eq_answers hs (keepsAddress_breakingAt hp broken) (cap_pos requested) ht hover,
      answers_breakingAt hp]

/-- The probe of the fourth host breaks down: the other five are found. -/
theorem one_result_of_eight_addresses :
    Subnet.of eightAddresses.address 29 = .ok eightAddresses ∧ everywhere.KeepsAddress ∧
      ∀ t, Reach (everywhere.breakingAt (· == eightAddresses.host 4)) (ScanLimits.cap 2) (.scan 80 .tcp)
          eightAddresses.hosts t → t.phase = .done →
        t.result.map (·.ip) = [1, 2, 3, 5, 6].map eightAddresses.host := by
  refine ⟨of_eightAddresses, keepsAddress_everywhere, fun t ht hover => ?_⟩
  obtain ⟨-, -, hruns⟩ := one_result_in_every_order of_eightAddresses keepsAddress_everywhere (.scan 80 .tcp)
  rw [(hruns 2).2.2.2 _ t ht hover]
  decide +kernel

/-! ## (6) Waves -/

theorem cap_eq_clamp (requested : Nat) : ScanLimits.cap requested = min (max requested 1) 256 := by
  rw [ScanLimits.cap, mostConcurrentProbes]
  omega

theorem candidates_eq_map (subnet : Subnet) (c : HostCriteria) :
    candidates subnet c = (subnet.hostIndices.filter fun i => c.allows (subnet.host i)).map subnet.host := by
  rw [candidates, Subnet.hosts, List.filter_map]
  rfl

/-- The waves are what the launched hosts are cut into. -/
theorem chunks_launched (hcap : 0 < cap) (h : Sized cap s) :
    chunks cap s.launched = s.past ++ if s.wave = [] then [] else [s.wave] := by
  have hfull := h.full
  rw [State.launched]
  generalize s.past = past at hfull
  induction past with
  | nil =>
    rw [List.flatten_nil, List.nil_append, List.nil_append]
    split
    · rename_i hw
      rw [hw, chunks]
    · rename_i hw
      exact chunks_eq_singleton hw h.length_wave_le
  | cons w past ih =>
    rw [List.flatten_cons, List.append_assoc, chunks_append (hfull w List.mem_cons_self) hcap,
      ih fun w hw => hfull w (List.mem_cons_of_mem _ hw), List.cons_append]

/-- A step launches at most one probe, which is then in flight, or ends at most one that was. -/
theorem inFlight_step (h : Step probe cap c s t) : ∃ new gone,
    t.launched = s.launched ++ new ∧ (s.inFlight ++ new).Perm (t.inFlight ++ gone) ∧
      new.length + gone.length ≤ 1 ∧ ∀ x ∈ gone, x ∈ t.ended := by
  unfold State.launched State.inFlight
  cases h with
  | launch a _ _ _ _ =>
    refine ⟨[a], [], by simp, ?_, Nat.le_refl _, nofun⟩
    rw [List.append_nil, List.append_assoc, List.append_assoc]
    exact List.perm_append_comm.append_left _
  | answer a ha _ =>
    refine ⟨[], [], by simp, ?_, Nat.zero_le _, nofun⟩
    rw [List.append_nil, List.append_nil, ← List.append_assoc]
    refine ((List.perm_cons_erase ha).append_right _).trans ?_
    exact (List.perm_append_singleton a _).symm
  | finish a ha =>
    refine ⟨[], [a], by simp, ?_, Nat.le_refl _, by simp⟩
    rw [List.append_nil, List.append_assoc]
    refine List.Perm.append_left _ ((List.perm_cons_erase ha).trans ?_)
    exact (List.perm_append_singleton a _).symm
  | breakDown a ha _ =>
    refine ⟨[], [a], by simp, ?_, Nat.le_refl _, by simp⟩
    rw [List.append_nil]
    refine ((List.perm_cons_erase ha).append_right _).trans ?_
    exact (List.perm_append_singleton a _).symm
  | skip | join | resume | close | leave => exact ⟨[], [], by simp, .refl _, Nat.zero_le _, nofun⟩

/-- What holds of the probes of a scan at every moment: `hosts` are those to launch, in order. -/
structure Orderly (hosts : List Address) (cap : Nat) (s : State) : Prop where
  inFlight_le : s.inFlight.length ≤ cap
  /-- The probes of the waves before the one that is out have all ended. -/
  barrier : ∀ w ∈ s.past, ∀ x ∈ w, x ∉ s.inFlight
  full : ∀ w ∈ s.past, w.length = cap
  wave_le : s.wave.length ≤ cap
  /-- No host is launched twice. -/
  once : s.launched.Nodup
  inOrder : s.launched <+: hosts
  complete : s.phase = .done → s.launched = hosts ∧ s.inFlight = []

theorem orderly (hcap : 0 < cap) (hn : (hosts.filter c.allows).Nodup) (h : Reach probe cap c hosts s) :
    Orderly (hosts.filter c.allows) cap s := by
  have hsized := sized hcap h
  have hordered : s.launched <+: hosts.filter c.allows := ⟨_, ordered h⟩
  have honce := hn.sublist hordered.sublist
  refine ⟨?_, fun w hw x hx hfly => ?_, hsized.full, hsized.length_wave_le, honce, hordered, fun hover => ?_⟩
  · have hout := hsized.out_le
    have hwave := hsized.length_wave_le
    rw [State.out] at hout
    rw [State.inFlight, List.length_append]
    omega
  · -- a probe in flight is one of the wave that is out, and no host is launched twice
    have hwave := hsized.inWave x ((List.mem_append.mp hfly).imp_right .inl)
    exact (List.nodup_append.mp honce).2.2 x (List.mem_flatten_of_mem hw hx) x hwave rfl
  · obtain ⟨hlaunched, hrunning, hleaving⟩ := over_of_reach hcap h hover
    exact ⟨hlaunched, by rw [State.inFlight, hrunning, hleaving]; rfl⟩

/-- A scan of a subnet, at every moment of every order of its steps: no more probes are in flight than the
    cap says, which is the requested one brought between 1 and 256; a wave starts when the one before it is
    over; the places that the criteria allow are launched once each, in ascending order, in waves of as many
    as the cap says but for the last; the first and the last address are never probed. -/
theorem waves_in_every_order {a : Address} {len : UInt32} {subnet : Subnet}
    (hof : Subnet.of a len = .ok subnet) (probe : Probe) (c : HostCriteria) (requested : Nat) :
    ∃ places : List Nat,
      places.Pairwise (· < ·) ∧
      (∀ i, i ∈ places ↔ 1 ≤ i ∧ i + 2 ≤ subnet.count ∧ c.allows (subnet.host i) = true) ∧
      (WellFounded fun u t => Step probe (ScanLimits.cap requested) c t u) ∧
      ∀ t, Reach probe (ScanLimits.cap requested) c subnet.hosts t →
        Orderly (places.map subnet.host) (min (max requested 1) 256) t ∧
        (∀ x ∈ t.launched, x ≠ subnet.base ∧ x ≠ subnet.broadcast) ∧
        (∀ u, Step probe (ScanLimits.cap requested) c t u → ∃ new gone,
          u.launched = t.launched ++ new ∧ (t.inFlight ++ new).Perm (u.inFlight ++ gone) ∧
            new.length + gone.length ≤ 1 ∧ ∀ x ∈ gone, x ∈ u.ended) ∧
        (t.phase ≠ .done → ∃ u, Step probe (ScanLimits.cap requested) c t u) ∧
        (t.phase = .done → (Scan.subnet probe (ScanLimits.cap requested) subnet c).waves =
          t.past ++ if t.wave = [] then [] else [t.wave]) := by
  have hs := Subnet.block_of hof
  have hcap := cap_pos requested
  refine ⟨subnet.hostIndices.filter fun i => c.allows (subnet.host i), Subnet.pairwise_hostIndices.filter _,
    fun i => ?_, wellFounded_step, fun t ht => ?_⟩
  · rw [List.mem_filter, Subnet.mem_hostIndices_iff, and_assoc]
  have horderly := orderly hcap (nodup_candidates hs) ht
  refine ⟨?_, fun x hx => ?_, fun u hu => inFlight_step hu, exists_step, fun hover => ?_⟩
  · rw [← cap_eq_clamp, ← candidates_eq_map]
    exact horderly
  · exact hs.ne_of_mem_hosts (List.mem_filter.mp (horderly.inOrder.subset hx)).1
  · rw [← chunks_launched hcap (sized hcap ht), (horderly.complete hover).1]
    rfl

/-- Six hosts, at most four at a time: a full wave of four and one of two. -/
theorem waves_of_six_hosts :
    Subnet.of eightAddresses.address 29 = .ok eightAddresses ∧
      ∀ t, Reach everywhere (ScanLimits.cap 4) (.scan 80 .tcp) eightAddresses.hosts t →
        t.inFlight.length ≤ 4 ∧
        (t.phase = .done → (t.past ++ if t.wave = [] then [] else [t.wave]) =
          [[1, 2, 3, 4].map eightAddresses.host, [5, 6].map eightAddresses.host]) := by
  refine ⟨of_eightAddresses, fun t ht => ?_⟩
  obtain ⟨_, -, -, -, hruns⟩ := waves_in_every_order of_eightAddresses everywhere (.scan 80 .tcp) 4
  obtain ⟨horderly, -, -, -, hwaves⟩ := hruns t ht
  have hallowed : candidates eightAddresses (.scan 80 .tcp) = [1, 2, 3, 4, 5, 6].map eightAddresses.host := by
    decide +kernel
  refine ⟨horderly.inFlight_le, fun hover => ?_⟩
  rw [← hwaves hover, Scan.subnet, hallowed]
  simp [chunks, ScanLimits.cap, mostConcurrentProbes]

end Peripheral.Scan.Schedule
