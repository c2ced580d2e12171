import Peripheral.Proofs.Json.RoundTrip
import Peripheral.Proofs.Text.Utf8
import Peripheral.Proofs.Toml.RoundTrip
import Peripheral.Settings.File

/-
  Peripheral.Proofs.Settings — saving and loading settings.

  Settings are a document (`isDocument_members`), so the tables that were written are read back
  as they were, and the settings are read from the tables field by field (`shape_toJson`). What
  can prevent saving is the one number of 64 bits, for a file holds 63 (`text_isOk`). A loaded
  file is checked afterwards, so settings beyond the limits are saved and then refused
  (`saved_settings_are_loaded`).
-/

namespace Peripheral

open Json

variable {p : Place}

/-! ## (1) Settings as tables -/

@[simp] theorem LogLevel.shape_toJson (l : LogLevel) : LogLevel.shape p l.toJson = some l := by
  cases l <;> rfl

@[simp] theorem LogFormat.shape_toJson (f : LogFormat) : LogFormat.shape p f.toJson = some f := by
  cases f <;> rfl

@[simp] theorem LoggingSettings.shape_toJson (s : LoggingSettings) : LoggingSettings.shape p s.toJson = some s := by
  rw [toJson, shape, open?_obj _ p (by simp)]
  simp [Record.defaulted, List.lookup_cons]

@[simp] theorem DiscoverySettings.shape_toJson (s : DiscoverySettings) :
    DiscoverySettings.shape p s.toJson = some s := by
  rw [toJson, shape, open?_obj _ p (by simp)]
  simp [Record.defaulted, List.lookup_cons, Shape.bool]

namespace Settings

/-- The tables of a settings file. -/
def tables (s : Settings) : List (String × Json) :=
  [("logging", s.logging.toJson), ("discovery", s.discovery.toJson)] ++
    if s.devices.isEmpty then [] else [("device", .arr (s.devices.map Criteria.toJson))]

theorem toJson_eq (s : Settings) : s.toJson = .obj s.tables := rfl

theorem shape_toJson (s : Settings) : shape p s.toJson = some s := by
  have hdevices : Shape.listOf Criteria.shape p (.arr (s.devices.map Criteria.toJson)) = some s.devices :=
    listOf_map (fun c => c.shape_toJson) s.devices
  rw [toJson_eq, shape, open?_obj _ p (by unfold tables; split <;> simp)]
  by_cases hempty : s.devices = []
  · rcases s with ⟨logging, discovery, _⟩
    cases hempty
    simp [Record.defaulted, tables, List.lookup_cons]
  · simp [Record.defaulted, tables, List.lookup_cons, hempty, hdevices]

theorem isTable_obj {members : List (String × Json)} (names : List String) (hmembers : members.map Prod.fst = names)
    (hnames : names.Nodup ∧ ∀ name ∈ names, Toml.IsBare name) : Toml.IsTable (.obj members) := by
  rw [← hmembers] at hnames
  exact ⟨hnames.1, fun m hm => hnames.2 m.1 (List.mem_map_of_mem hm)⟩

/-- Every search is a table. -/
theorem isTable_criteria (c : Criteria) : Toml.IsTable c.toJson := by
  cases c with
  | usb c => exact isTable_obj ("transport" :: UsbCriteria.fieldNames) rfl (by decide)
  | ethernet c => exact isTable_obj ("transport" :: HostCriteria.fieldNames) rfl (by decide)
  | http c => exact isTable_obj ("transport" :: HostCriteria.fieldNames) rfl (by decide)

theorem isDocument_tables (s : Settings) : Toml.IsDocument s.tables := by
  have hlogging : Toml.IsMember s.logging.toJson := isTable_obj ["level", "format"] rfl (by decide)
  have hdiscovery : Toml.IsMember s.discovery.toJson :=
    isTable_obj ["usb", "ethernet", "probe_timeout_ms", "max_concurrent_probes"] rfl (by decide)
  have hbare : Toml.IsBare "logging" ∧ Toml.IsBare "discovery" ∧ Toml.IsBare "device" := by decide
  by_cases hempty : s.devices = []
  · simp [Toml.IsDocument, tables, hempty, hbare, hlogging, hdiscovery]
  · have hdevices : Toml.IsMember (.arr (s.devices.map Criteria.toJson)) := by
      refine ⟨by simpa using hempty, ?_⟩
      intro j hj
      obtain ⟨c, -, rfl⟩ := List.mem_map.mp hj
      exact isTable_criteria c
    simp [Toml.IsDocument, tables, hempty, hbare, hlogging, hdiscovery, hdevices]

/-! ## (2) Loading -/

theorem text_eq_ok {s : Settings} {t : String} (h : s.text = .ok t) : Toml.text? (.obj s.tables) = some t := by
  rw [text, toJson_eq] at h
  generalize Toml.text? (.obj s.tables) = written at h
  cases written with
  | some text =>
    cases h
    rfl
  | none => cases h

/-- Settings are read from the text that was saved, and then checked. -/
theorem ofText_text {s : Settings} {t : String} (h : s.text = .ok t) : ofText t = s.check.map fun _ => s := by
  have hread := Toml.ofText?_text? s.isDocument_tables (text_eq_ok h)
  obtain ⟨es, hes, hentries⟩ := Option.map_eq_some_iff.mp hread
  have hshape : (Toml.ofText? t).bind (fun es => shape .table (.obj (Toml.entriesToJson es))) = some s := by
    rw [hes, Option.bind_some, hentries, ← toJson_eq, shape_toJson]
  rw [ofText, hshape]
  show (s.check >>= fun _ => pure s) = s.check.map fun _ => s
  cases s.check <;> rfl

/-- A file with settings is text. -/
theorem ofBytes_encode (t : String) : ofBytes (Text.Utf8.encode t) = ofText t := by
  rw [ofBytes, Text.Utf8.decode?_encode]

/-- Settings that pass the check are within the limits. -/
theorem check_eq_ok {s : Settings} (h : s.check = .ok ()) :
    s.discovery.probeTimeoutMs ≠ 0 ∧ 1 ≤ s.discovery.maxConcurrent.toNat ∧
      s.discovery.maxConcurrent.toNat ≤ mostConcurrentProbes := by
  unfold check at h
  split at h
  · cases h
  next htimeout =>
  split at h
  · cases h
  next hprobes =>
  rw [not_or] at hprobes
  refine ⟨htimeout, Nat.one_le_iff_ne_zero.mpr ?_, Nat.le_of_not_lt hprobes.2⟩
  intro hzero
  exact hprobes.1 (UInt64.toNat_inj.mp hzero)

/-- The check says what is wrong. -/
theorem check_eq_error {s : Settings} {e : SettingsError} (h : s.check = .error e) : ∃ reason, e = .invalid reason := by
  unfold check at h
  split at h
  · cases h
    exact ⟨_, rfl⟩
  split at h
  · cases h
    exact ⟨_, rfl⟩
  · cases h

/-- What is read from a text has passed the check. -/
theorem check_of_ofText {t : String} {s : Settings} (h : ofText t = .ok s) : s.check = .ok () := by
  unfold ofText at h
  split at h
  · next read _ =>
    cases hcheck : read.check with
    | ok _ =>
      rw [hcheck] at h
      cases h
      exact hcheck
    | error e =>
      rw [hcheck] at h
      cases h
  · cases h

/-! ## (3) Saving -/

theorem isSome_writeValue?_str (t : String) : (Toml.writeValue? (.str t)).isSome = true := rfl

theorem isSome_writeValue?_bool (b : Bool) : (Toml.writeValue? (.bool b)).isSome = true := rfl

theorem isSome_writeValue?_uint16 (n : UInt16) : (Toml.writeValue? (.nat n.toNat)).isSome = true := by
  have hn := n.toNat_lt
  exact (Toml.isSome_writeValue?_nat n.toNat).mpr (by omega)

theorem isSome_writeValue?_uint32 (n : UInt32) : (Toml.writeValue? (.nat n.toNat)).isSome = true := by
  have hn := n.toNat_lt
  exact (Toml.isSome_writeValue?_nat n.toNat).mpr (by omega)

theorem hasLines_criteria (c : Criteria) : Toml.HasLines c.toJson := by
  cases c with
  | usb c =>
    simp [Criteria.toJson, UsbCriteria.members, Toml.HasLines, isSome_writeValue?_str, isSome_writeValue?_uint16]
  | ethernet c =>
    simp [Criteria.toJson, HostCriteria.members, Protocol.toJson, Toml.HasLines, isSome_writeValue?_str,
      isSome_writeValue?_uint16]
  | http c =>
    simp [Criteria.toJson, HostCriteria.members, Protocol.toJson, Toml.HasLines, isSome_writeValue?_str,
      isSome_writeValue?_uint16]

theorem hasLines_logging (s : LoggingSettings) : Toml.HasLines s.toJson := by
  simp [LoggingSettings.toJson, LogLevel.toJson, LogFormat.toJson, Toml.HasLines, isSome_writeValue?_str]

theorem hasLines_discovery_iff (s : DiscoverySettings) :
    Toml.HasLines s.toJson ↔ s.maxConcurrent.toNat < 2 ^ 63 := by
  rw [← Toml.isSome_writeValue?_nat]
  simp [DiscoverySettings.toJson, Toml.HasLines, isSome_writeValue?_bool, isSome_writeValue?_uint32]

theorem isWritable_tables_iff (s : Settings) :
    (∀ m ∈ s.tables, Toml.IsWritable m.2) ↔ s.discovery.maxConcurrent.toNat < 2 ^ 63 := by
  have hlogging : Toml.IsWritable s.logging.toJson := hasLines_logging s.logging
  have hdiscovery : Toml.IsWritable s.discovery.toJson ↔ s.discovery.maxConcurrent.toNat < 2 ^ 63 :=
    hasLines_discovery_iff s.discovery
  have hdevices : Toml.IsWritable (.arr (s.devices.map Criteria.toJson)) := by
    intro j hj
    obtain ⟨c, -, rfl⟩ := List.mem_map.mp hj
    exact hasLines_criteria c
  rw [← hdiscovery, tables]
  split <;> simp [hlogging, hdevices]

/-- Only a number of probes beyond the signed numbers of 64 bits cannot be saved. -/
theorem text_isOk_iff (s : Settings) : (∃ t, s.text = .ok t) ↔ s.discovery.maxConcurrent.toNat < 2 ^ 63 := by
  rw [← isWritable_tables_iff, ← Toml.isSome_text?, text, toJson_eq]
  cases Toml.text? (.obj s.tables) with
  | some t => simp
  | none => simp

/-! ## (4) Saving and loading -/

/-- Settings that can be saved are loaded again as they were if they pass the check; otherwise loading fails as the
    check does. What is loaded is within the limits. -/
theorem saved_settings_are_loaded :
    (∀ s : Settings, (∃ t, s.text = .ok t) ↔ s.discovery.maxConcurrent.toNat < 2 ^ 63) ∧
    (∀ (s : Settings) (t : String), s.text = .ok t →
      (s.check = .ok () → ofBytes (Text.Utf8.encode t) = .ok s) ∧
      ∀ e, s.check = .error e → ofBytes (Text.Utf8.encode t) = .error e ∧ ∃ reason, e = .invalid reason) ∧
    ∀ (bytes : List UInt8) (s : Settings), ofBytes bytes = .ok s →
      s.discovery.probeTimeoutMs ≠ 0 ∧ 1 ≤ s.discovery.maxConcurrent.toNat ∧
        s.discovery.maxConcurrent.toNat ≤ 256 := by
  refine ⟨text_isOk_iff, ?_, ?_⟩
  · intro s t h
    rw [ofBytes_encode, ofText_text h]
    refine ⟨fun hcheck => by rw [hcheck]; rfl, ?_⟩
    intro e hcheck
    rw [hcheck]
    exact ⟨rfl, check_eq_error hcheck⟩
  · intro bytes s h
    unfold ofBytes at h
    split at h
    · exact check_eq_ok (check_of_ofText h)
    · cases h

/-- Settings with one search for a serial number that takes both quotes, a backslash and a line end. -/
def quoted (limit : UInt64) : Settings :=
  { discovery := { maxConcurrent := limit }, devices := [.usb { serialNumber := "it's \"A\\B\"\n" }] }

/-- With 32 probes at once they are saved and loaded, with a thousand saved and refused. -/
theorem quoted_are_loaded_or_refused :
    (∃ t, (quoted 32).text = .ok t ∧ ofBytes (Text.Utf8.encode t) = .ok (quoted 32)) ∧
    ∃ t, (quoted 1000).text = .ok t ∧ ofBytes (Text.Utf8.encode t) =
      .error (.invalid "discovery.max_concurrent_probes must be between 1 and 256") := by
  obtain ⟨hsaved, hloaded, -⟩ := saved_settings_are_loaded
  obtain ⟨t, ht⟩ := (hsaved (quoted 32)).mpr (by decide)
  obtain ⟨u, hu⟩ := (hsaved (quoted 1000)).mpr (by decide)
  exact ⟨⟨t, ht, (hloaded _ t ht).1 rfl⟩, u, hu, ((hloaded _ u hu).2 _ rfl).1⟩

end Settings

end Peripheral
