import Peripheral.Proofs.Scan.Discover
import Peripheral.Proofs.Scan.Schedule

/-
  Peripheral.Proofs.Scan.Events — what a scan logs.

  (1) The scan of a subnet logs that it starts, one event for each probe that breaks down, and
  that it is complete, with the number of probes and of the hosts found (`events_subnet`).

  (2) The scanning thread logs a probe that has broken down when it takes it back (`Told`).
  The events of broken probes are all alike, so they count and their order does not
  (`Counted`): in every order of its steps a scan logs the same (`events_of_over`).

  (3) A search over interfaces logs the scans of its subnets one after the other. It warns
  only if the criteria cannot be probed at all, and then that is all it does
  (`scans_log_what_they_do`).
-/

namespace Peripheral.Scan

variable {probe : Probe} {cap : Nat} {c : HostCriteria} {s : Subnet}

/-! ## (1) One subnet -/

def started (s : Subnet) (c : HostCriteria) : LogEvent :=
  ⟨.info, "Scanning subnet", [("subnet", s.base.text), ("prefix", s!"{s.prefixLen}"), ("port", s!"{c.port}")]⟩

def completed (s : Subnet) (probed found : Nat) : LogEvent :=
  ⟨.debug, "Subnet scan complete", [("subnet", s.base.text), ("probed", s!"{probed}"), ("found", s!"{found}")]⟩

def probeFailed : LogEvent := ⟨.debug, "Probe task failed", [("error", "task panicked")]⟩

/-- The probe of the address breaks down. -/
def breaks (probe : Probe) (c : HostCriteria) (a : Address) : Bool := probe a c.port c.protocol = .broken

/-- Events of the broken probes of a wave: one like the other. -/
theorem brokenEvents_eq (wave : List Address) :
    brokenEvents probe c wave = List.replicate (wave.countP (breaks probe c)) probeFailed := by
  induction wave with
  | nil => rfl
  | cons a wave ih =>
    unfold brokenEvents at ih ⊢
    by_cases ha : probe a c.port c.protocol = .broken
    · have hbreaks : breaks probe c a = true := decide_eq_true ha
      rw [List.filterMap_cons_some (by rw [if_pos ha]), List.countP_cons_of_pos hbreaks, ih]
      rfl
    · have hbreaks : ¬ breaks probe c a = true := by simpa [breaks] using ha
      rw [List.filterMap_cons_none (by rw [if_neg ha]), List.countP_cons_of_neg hbreaks, ih]

@[simp] theorem events_append (xs ys : List Notice) : Notice.events (xs ++ ys) = Notice.events xs ++ Notice.events ys :=
  List.filterMap_append

@[simp] theorem events_map_event (es : List LogEvent) : Notice.events (es.map .event) = es := by
  unfold Notice.events
  rw [List.filterMap_map]
  exact List.filterMap_some

theorem events_waves (waves : List (List Address)) :
    Notice.events (waves.flatMap (waveNotices probe c)) =
      List.replicate (waves.flatten.countP (breaks probe c)) probeFailed := by
  induction waves with
  | nil => rfl
  | cons wave waves ih =>
    have hwave : Notice.events (waveNotices probe c wave) = brokenEvents probe c wave :=
      events_map_event (brokenEvents probe c wave)
    rw [List.flatMap_cons, events_append, ih, hwave, brokenEvents_eq, List.flatten_cons, List.countP_append,
      List.replicate_add]

theorem probed_subnet (probe : Probe) (cap : Nat) (s : Subnet) (c : HostCriteria) :
    (subnet probe cap s c).probed = candidates s c := flatten_chunks cap _

theorem events_subnet (probe : Probe) (cap : Nat) (s : Subnet) (c : HostCriteria) : (subnet probe cap s c).events =
    started s c :: List.replicate ((candidates s c).countP (breaks probe c)) probeFailed ++
      [completed s (subnet probe cap s c).probed.length (subnet probe cap s c).hosts.length] := by
  have hwaves := @events_waves probe c (chunks cap (candidates s c))
  rw [flatten_chunks] at hwaves
  rw [← hwaves]
  exact congrArg (started s c :: ·) (events_append _ _)

/-! ## (2) Every order -/

namespace Schedule

open Scan (started completed)

/-- The runs of a scan and what the scanning thread has logged in them. -/
inductive Told (probe : Probe) (cap : Nat) (c : HostCriteria) (subnet : Subnet) : State → List LogEvent → Prop
  | start : Told probe cap c subnet { ahead := subnet.hosts } [started subnet c]
  /-- No probe is taken back, and the scan is not over. -/
  | silent {s t : State} {es : List LogEvent} : Told probe cap c subnet s es → Step probe cap c s t →
      s.ended <+: t.ended → t.phase ≠ .done → Told probe cap c subnet t es
  | join {s : State} {es : List LogEvent} (a : Address) : Told probe cap c subnet s es →
      s.phase = .joining ∨ s.phase = .closing → a ∈ s.ended →
      Told probe cap c subnet { s with ended := s.ended.erase a } (es ++ brokenEvents probe c [a])
  | leave {s : State} {es : List LogEvent} : Told probe cap c subnet s es → s.phase = .closing → s.out = 0 →
      Told probe cap c subnet { s with phase := .done } (es ++ [completed subnet s.launched.length s.result.length])

variable {t : State} {es : List LogEvent}

theorem Told.reach (h : Told probe cap c s t es) : Reach probe cap c s.hosts t := by
  induction h with
  | start => exact .start
  | silent _ hstep _ _ ih => exact ih.step hstep
  | join a _ hphase ha ih => exact ih.step (.join _ a hphase ha)
  | leave _ hphase hout ih => exact ih.step (.leave _ hphase hout)

/-- A scan is not over while a probe has not ended. -/
theorem ne_done_of_mem (hcap : 0 < cap) (h : Told probe cap c s t es) {a : Address} (ha : a ∈ t.running ∨ a ∈ t.leaving) :
    t.phase ≠ .done := by
  intro hover
  obtain ⟨-, hrunning, hleaving⟩ := over_of_reach hcap h.reach hover
  rw [hrunning, hleaving] at ha
  simp at ha

/-- Whatever step is next, the run goes on with what is logged in it. -/
theorem told_step (hcap : 0 < cap) {u : State} (h : Told probe cap c s t es) (hstep : Step probe cap c t u) :
    ∃ new, Told probe cap c s u (es ++ new) := by
  have hsilent : t.ended <+: u.ended → u.phase ≠ .done → ∃ new, Told probe cap c s u (es ++ new) := by
    intro hended hphase
    exact ⟨[], by rw [List.append_nil]; exact h.silent hstep hended hphase⟩
  have hrunning : ∀ a, a ∈ t.running ∨ a ∈ t.leaving → t.phase ≠ .done := fun a ha => ne_done_of_mem hcap h ha
  cases hstep with
  | join a hphase ha => exact ⟨_, h.join a hphase ha⟩
  | leave hphase hout => exact ⟨_, h.leave hphase hout⟩
  | skip a rest hphase _ _ => exact hsilent (List.prefix_refl _) (by simp [hphase])
  | launch a rest hphase _ _ => exact hsilent (List.prefix_refl _) (by simp only; split <;> decide)
  | answer a ha _ => exact hsilent (List.prefix_refl _) (hrunning a (.inl ha))
  | finish a ha => exact hsilent (List.prefix_append _ _) (hrunning a (.inr ha))
  | breakDown a ha _ => exact hsilent (List.prefix_append _ _) (hrunning a (.inl ha))
  | resume hphase _ => exact hsilent (List.prefix_refl _) (by simp)
  | close hphase _ => exact hsilent (List.prefix_refl _) (by simp)

theorem exists_told (hcap : 0 < cap) (h : Reach probe cap c s.hosts t) : ∃ es, Told probe cap c s t es := by
  induction h with
  | start => exact ⟨_, .start⟩
  | step _ hstep ih =>
    obtain ⟨es, htold⟩ := ih
    obtain ⟨new, htold'⟩ := told_step hcap htold hstep
    exact ⟨es ++ new, htold'⟩

/-- Each launched probe that breaks down is running, has ended or was logged. -/
structure Counted (probe : Probe) (c : HostCriteria) (s : Subnet) (t : State) (es : List LogEvent) : Prop where
  /-- A probe that has answered does not break down. -/
  leaving : t.leaving.countP (breaks probe c) = 0
  logged : ∃ n, n + t.running.countP (breaks probe c) + t.ended.countP (breaks probe c) =
      t.launched.countP (breaks probe c) ∧
    es = started s c :: List.replicate n probeFailed ++
      if t.phase = .done then [completed s t.launched.length t.result.length] else []

theorem countP_erase {a : Address} {l : List Address} (ha : a ∈ l) :
    (l.erase a).countP (breaks probe c) + [a].countP (breaks probe c) = l.countP (breaks probe c) := by
  rw [(List.perm_cons_erase ha).countP_eq, ← List.countP_append, ← (List.perm_append_singleton a _).countP_eq]

theorem counted_silent {u : State} (h : Counted probe c s t es) (hstep : Step probe cap c t u)
    (hended : t.ended <+: u.ended) (hphase : u.phase ≠ .done) : Counted probe c s u es := by
  obtain ⟨hleaving, n, hn, hes⟩ := h
  have hes' : t.phase ≠ .done → es = started s c :: List.replicate n probeFailed ++
      if u.phase = .done then [completed s u.launched.length u.result.length] else [] := by
    intro ht
    rw [if_neg ht] at hes
    rw [if_neg hphase]
    exact hes
  cases hstep with
  | skip a rest hp _ _ => exact ⟨hleaving, n, hn, hes' (by simp [hp])⟩
  | launch a rest hp _ _ =>
    refine ⟨hleaving, n, ?_, hes' (by simp [hp])⟩
    simp only [State.launched, ← List.append_assoc, List.countP_append] at hn ⊢
    omega
  | answer a ha hanswer =>
    have hnot : [a].countP (breaks probe c) = 0 := by simp [breaks, hanswer]
    have herase := @countP_erase probe c _ _ ha
    refine ⟨?_, n, ?_, hes' hphase⟩
    · simp only [List.countP_append]
      omega
    · simp only [State.launched] at hn ⊢
      omega
  | finish a ha =>
    have herase := @countP_erase probe c _ _ ha
    refine ⟨?_, n, ?_, hes' hphase⟩
    · simp only
      omega
    · simp only [State.launched, List.countP_append] at hn ⊢
      omega
  | breakDown a ha hbreak =>
    have herase := @countP_erase probe c _ _ ha
    refine ⟨hleaving, n, ?_, hes' hphase⟩
    simp only [State.launched, List.countP_append] at hn ⊢
    omega
  | join a hp ha =>
    -- a probe that is taken back is missed
    have hshorter := List.length_erase_add_one ha
    have := hended.length_le
    simp only at this
    omega
  | resume hp _ =>
    refine ⟨hleaving, n, ?_, hes' (by simp [hp])⟩
    simp only [State.launched, List.flatten_append, List.flatten_singleton, List.append_nil] at hn ⊢
    exact hn
  | close hp _ => exact ⟨hleaving, n, hn, hes' (by simp [hp])⟩
  | leave => exact absurd rfl hphase

theorem counted (h : Told probe cap c s t es) : Counted probe c s t es := by
  induction h with
  | start => exact ⟨rfl, 0, rfl, rfl⟩
  | silent _ hstep hended hphase ih => exact counted_silent ih hstep hended hphase
  | @join t es a _ hp ha ih =>
    obtain ⟨hleaving, n, hn, hes⟩ := ih
    have hphase : t.phase ≠ .done := by rcases hp with hp | hp <;> simp [hp]
    have herase := @countP_erase probe c _ _ ha
    refine ⟨hleaving, n + [a].countP (breaks probe c), ?_, ?_⟩
    · simp only [State.launched] at hn ⊢
      omega
    · rw [if_neg hphase, List.append_nil] at hes
      rw [if_neg hphase, List.append_nil, hes, brokenEvents_eq, List.replicate_add, List.cons_append]
  | @leave t es _ hp hout ih =>
    obtain ⟨hleaving, n, hn, hes⟩ := ih
    refine ⟨hleaving, n, hn, ?_⟩
    rw [if_neg (by simp [hp]), List.append_nil] at hes
    rw [if_pos rfl, hes]
    rfl

/-- Whatever the order of its steps, a scan that is over has logged the same, and the numbers in it are those of the
    probes launched and of the hosts returned. -/
theorem events_of_over (hcap : 0 < cap) (h : Told probe cap c s t es) (hover : t.phase = .done) :
    es = (subnet probe cap s c).events ∧ t.launched = (subnet probe cap s c).probed ∧
      t.result.Perm (subnet probe cap s c).hosts := by
  obtain ⟨hlaunched, hrunning, hleaving⟩ := over_of_reach hcap h.reach hover
  have hended : t.ended = [] := by
    have hout := (sized hcap h.reach).allBack hover
    rw [State.out] at hout
    exact List.eq_nil_of_length_eq_zero (by omega)
  have hprobed : t.launched = (subnet probe cap s c).probed := hlaunched.trans (probed_subnet probe cap s c).symm
  have hfound : t.found.Perm ((candidates s c).filterMap (ask probe c)) := by
    have hcollected := collected h.reach
    unfold Collected at hcollected
    rwa [hrunning, List.filterMap_nil, List.append_nil, hlaunched] at hcollected
  have hhosts : (subnet probe cap s c).hosts = sortByAddress ((candidates s c).filterMap (ask probe c)) := by
    show sortByAddress ((chunks cap (candidates s c)).flatMap fun w => w.filterMap (ask probe c)) = _
    rw [List.flatMap_def, ← List.filterMap_flatten, flatten_chunks]
  have hresult : t.result.Perm (subnet probe cap s c).hosts := by
    rw [hhosts]
    exact (List.mergeSort_perm _ _).trans (hfound.trans (List.mergeSort_perm _ _).symm)
  refine ⟨?_, hprobed, hresult⟩
  obtain ⟨-, n, hn, hes⟩ := counted h
  rw [hrunning, hended, List.countP_nil, hprobed, probed_subnet, Nat.add_zero] at hn
  rw [events_subnet, hes, if_pos hover, ← hprobed, hresult.length_eq, ← hn]

end Schedule

/-! ## (3) All interfaces -/

/-- An event of less than a warning. -/
def Quiet (e : LogEvent) : Prop := e.severity ≠ .warn ∧ e.severity ≠ .error

theorem quiet_mk {v : Severity} (message : String) (fields : List (String × String))
    (h : v ≠ .warn ∧ v ≠ .error) : Quiet ⟨v, message, fields⟩ := h

/-- An event that says that the scan of a subnet starts or is complete. -/
def marksScan (e : LogEvent) : Bool := e.message == "Scanning subnet" || e.message == "Subnet scan complete"

theorem quiet_subnet : ∀ e ∈ (subnet probe cap s c).events, Quiet e := by
  intro e he
  rw [events_subnet, List.cons_append, List.mem_cons, List.mem_append, List.mem_singleton] at he
  rcases he with rfl | he | rfl
  · exact quiet_mk _ _ (by decide)
  · rw [List.eq_of_mem_replicate he]
    exact quiet_mk _ _ (by decide)
  · exact quiet_mk _ _ (by decide)

theorem marks_subnet (probe : Probe) (cap : Nat) (s : Subnet) (c : HostCriteria) :
    (subnet probe cap s c).events.filter marksScan =
      [started s c, completed s (subnet probe cap s c).probed.length (subnet probe cap s c).hosts.length] := by
  have hfailed : ∀ n, (List.replicate n probeFailed).filter marksScan = [] := by
    intro n
    rw [List.filter_replicate, if_neg (by decide)]
  rw [events_subnet, List.cons_append, List.filter_cons_of_pos rfl, List.filter_append, hfailed]
  rfl

theorem events_append_report (r r' : Report) : (r ++ r').events = r.events ++ r'.events :=
  Scan.events_append r.notices r'.notices

theorem quiet_interfaces (seen : List (Address × UInt32)) (is : List Interface) :
    ∀ e ∈ (interfaces probe cap c seen is).events, Quiet e := by
  fun_induction interfaces probe cap c seen is with
  | case1 =>
    intro e he
    cases he
  | case2 seen i rest hi ih =>
    intro e he
    rcases List.mem_append.mp (events_append_report _ _ ▸ he) with he | he
    · rw [List.mem_singleton.mp he]
      exact quiet_mk _ _ (by decide)
    · exact ih e he
  | case3 seen i rest s hi hk ih => exact ih
  | case4 seen i rest s hi hk ih =>
    intro e he
    rcases List.mem_append.mp (events_append_report _ _ ▸ he) with he | he
    · exact quiet_subnet e he
    · exact ih e he

/-- Each subnet is marked twice. -/
theorem marks_interfaces (seen : List (Address × UInt32)) (is : List Interface) :
    (interfaces probe cap c seen is).events.filter marksScan = (subnetsAfter seen is).flatMap fun s =>
      [started s c, completed s (subnet probe cap s c).probed.length (subnet probe cap s c).hosts.length] := by
  fun_induction interfaces probe cap c seen is with
  | case1 => rfl
  | case2 seen i rest hi ih =>
    rw [subnetsAfter, hi, events_append_report, List.filter_append, ih]
    rfl
  | case3 seen i rest s hi hk ih =>
    have hmem : s.key ∈ seen := List.contains_iff_mem.mp hk
    rw [subnetsAfter, hi]
    simpa only [hmem, if_true] using ih
  | case4 seen i rest s hi hk ih =>
    have hmem : s.key ∉ seen := fun h => hk (List.contains_iff_mem.mpr h)
    rw [subnetsAfter, hi, events_append_report, List.filter_append, ih, marks_subnet]
    simp only [hmem, if_false, List.flatMap_cons]
    rfl

/-- The criteria name no address that can be probed. -/
def Unprobable (c : HostCriteria) : Prop :=
  c.port = 0 ∨ c.isSubnetScan = false ∧ ∃ e, Address.parse (Text.strip c.ip) = .error e

theorem discover_unprobable (is : List Interface) (h : Unprobable c) : ∃ w, (discover probe cap is c).events = [w] ∧
    w.severity = .warn ∧ (discover probe cap is c).waves = [] ∧ (discover probe cap is c).hosts = [] := by
  unfold discover
  by_cases hport : c.port = 0
  · rw [if_pos hport]
    exact ⟨_, rfl, rfl, rfl, rfl⟩
  · obtain ⟨hscan, e, he⟩ := h.resolve_left hport
    rw [if_neg hport, hscan, he]
    exact ⟨_, rfl, rfl, rfl, rfl⟩

theorem quiet_discover (is : List Interface) (h : ¬ Unprobable c) : ∀ e ∈ (discover probe cap is c).events, Quiet e := by
  have hport : c.port ≠ 0 := fun hport => h (.inl hport)
  unfold discover
  rw [if_neg hport]
  cases hscan : c.isSubnetScan with
  | true => exact quiet_interfaces [] is
  | false =>
    cases ha : Address.parse (Text.strip c.ip) with
    | error e => exact absurd (.inr ⟨hscan, e, ha⟩) h
    | ok a =>
      show ∀ e ∈ (host probe a c).events, Quiet e
      intro e he
      unfold host Report.events Notice.events at he
      by_cases hbreak : probe a c.port c.protocol = .broken
      · simp only [hbreak, if_true] at he
        rw [List.mem_singleton.mp he]
        exact quiet_mk _ _ (by decide)
      · simp only [hbreak, if_false] at he
        cases he

/-- A search warns only if the criteria name no address that can be probed: then it logs one warning and launches no
    probe. A scan marks the start and the end of each distinct subnet once, with the numbers of its probes and of the
    hosts that it returned; and in every order of its steps the scan of a subnet logs the same. -/
theorem scans_log_what_they_do (probe : Probe) (is : List Interface) (c : HostCriteria) (requested : Nat) :
    (Unprobable c → ∃ w, (discover probe (ScanLimits.cap requested) is c).events = [w] ∧ w.severity = .warn ∧
      (discover probe (ScanLimits.cap requested) is c).waves = [] ∧
      (discover probe (ScanLimits.cap requested) is c).hosts = []) ∧
    (¬ Unprobable c → ∀ e ∈ (discover probe (ScanLimits.cap requested) is c).events,
      e.severity ≠ .warn ∧ e.severity ≠ .error) ∧
    (c.port ≠ 0 → c.isSubnetScan = true → ∃ scanned : List Subnet,
      scanned.Sublist (is.filterMap (·.ipv4)) ∧ (scanned.map Subnet.key).Nodup ∧
      (∀ i ∈ is, ∀ s, i.ipv4 = some s → s.key ∈ scanned.map Subnet.key) ∧
      (discover probe (ScanLimits.cap requested) is c).waves =
        (scanned.flatMap fun s => (subnet probe (ScanLimits.cap requested) s c).waves) ∧
      (discover probe (ScanLimits.cap requested) is c).events.filter marksScan = scanned.flatMap fun s =>
        [started s c, completed s (subnet probe (ScanLimits.cap requested) s c).probed.length
          (subnet probe (ScanLimits.cap requested) s c).hosts.length]) ∧
    ∀ s : Subnet,
      (∀ t, Schedule.Reach probe (ScanLimits.cap requested) c s.hosts t →
        ∃ es, Schedule.Told probe (ScanLimits.cap requested) c s t es) ∧
      ∀ t es, Schedule.Told probe (ScanLimits.cap requested) c s t es →
        (t.phase ≠ .done → ∃ u, Schedule.Step probe (ScanLimits.cap requested) c t u) ∧
        (t.phase = .done → es = (subnet probe (ScanLimits.cap requested) s c).events ∧
          t.launched = (subnet probe (ScanLimits.cap requested) s c).probed ∧
          t.result.Perm (subnet probe (ScanLimits.cap requested) s c).hosts) := by
  have hcap := Schedule.cap_pos requested
  refine ⟨discover_unprobable is, quiet_discover is, ?_, ?_⟩
  · intro hport hscan
    refine ⟨subnetsAfter [] is, subnetsAfter_sublist [] is, (nodup_subnetsAfter [] is).1, ?_, ?_, ?_⟩
    · intro i hi s hs
      exact (key_mem_subnetsAfter [] is hi hs).resolve_left nofun
    · simp only [discover, hport, hscan, if_false, Bool.not_true, Bool.false_eq_true, (interfaces_eq [] is).2]
    · simp only [discover, hport, hscan, if_false, Bool.not_true, Bool.false_eq_true]
      exact marks_interfaces [] is
  · intro s
    refine ⟨fun t ht => Schedule.exists_told hcap ht, ?_⟩
    intro t es htold
    exact ⟨Schedule.exists_step, Schedule.events_of_over hcap htold⟩

/-- Where every probe breaks down a scan does not warn; without a port it does. -/
theorem scan_of_broken_probes_is_quiet :
    ¬ Unprobable (.scan 80 .tcp) ∧
    (∀ e ∈ (discover (everywhere.breakingAt fun _ => true) (ScanLimits.cap 2) nested (.scan 80 .tcp)).events,
      e.severity ≠ .warn ∧ e.severity ≠ .error) ∧
    Unprobable (.scan 0 .tcp) ∧
    ∃ w, (discover (everywhere.breakingAt fun _ => true) (ScanLimits.cap 2) nested (.scan 0 .tcp)).events = [w] ∧
      w.severity = .warn := by
  have hscan : HostCriteria.isSubnetScan (.scan 80 .tcp) = true := by decide +kernel
  have hprobable : ¬ Unprobable (.scan 80 .tcp) := by
    intro h
    rcases h with h | ⟨h, -⟩
    · exact absurd h (by decide)
    · exact absurd (hscan.symm.trans h) (by decide)
  obtain ⟨-, hquiet, -⟩ := scans_log_what_they_do (everywhere.breakingAt fun _ => true) nested (.scan 80 .tcp) 2
  obtain ⟨hwarn, -⟩ := scans_log_what_they_do (everywhere.breakingAt fun _ => true) nested (.scan 0 .tcp) 2
  obtain ⟨w, hw, hseverity, -⟩ := hwarn (.inl rfl)
  exact ⟨hprobable, hquiet hprobable, .inl rfl, w, hw, hseverity⟩

end Peripheral.Scan
