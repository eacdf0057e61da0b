import Mathlib.Data.List.Nodup
import Mathlib.Tactic.SplitIfs
import WireTap.Daemon.Equiv.Layers

/-!
# The databases frames go to

`databases` names each database a device's stream lands in once, and the default where the ingest
listener feeds it, and no other (`mem_databases`, `nodup_databases`).  All of them are names the
gateway takes, or empty (`valid_of_mem_databases`).
-/

namespace WireTap.Daemon.Settings

/-! ### Which they are -/

theorem mem_foldl_distinct {fed out : List String} {db : String} :
    db ∈ fed.foldl (fun out db => if out.contains db then out else out ++ [db]) out ↔
      db ∈ out ∨ db ∈ fed := by
  induction fed generalizing out with
  | nil => simp
  | cons x fed ih =>
    rw [List.foldl_cons, ih, List.mem_cons]
    split_ifs with hin
    · rw [List.contains_iff_mem] at hin
      constructor
      · rintro (h | h)
        · exact .inl h
        · exact .inr (.inr h)
      · rintro (h | rfl | h)
        · exact .inl h
        · exact .inl hin
        · exact .inr h
    · rw [List.mem_append, List.mem_singleton]
      tauto

theorem nodup_foldl_distinct {fed out : List String} (h : out.Nodup) :
    (fed.foldl (fun out db => if out.contains db then out else out ++ [db]) out).Nodup := by
  induction fed generalizing out with
  | nil => exact h
  | cons x fed ih =>
    rw [List.foldl_cons]
    apply ih
    split_ifs with hin
    · exact h
    · rw [List.contains_iff_mem] at hin
      exact h.append (List.nodup_singleton x) (by simpa using hin)

theorem mem_databases {s : Settings} {db : String} :
    db ∈ s.databases ↔
      (∃ d ∈ s.devices, db ∈ d.databases) ∨ (s.ingest.isSome = true ∧ db = s.defaultDatabase) := by
  unfold databases
  rw [mem_foldl_distinct, List.mem_flatMap]
  split_ifs with hdefault
  · rw [List.mem_singleton]
    constructor
    · rintro (rfl | hfed)
      · rcases Bool.or_eq_true_iff.mp hdefault with hingest | hfed
        · exact .inr ⟨hingest, rfl⟩
        · rw [List.contains_iff_mem] at hfed
          exact .inl (List.mem_flatMap.mp hfed)
      · exact .inl hfed
    · rintro (hfed | ⟨-, rfl⟩)
      · exact .inr hfed
      · exact .inl rfl
  · constructor
    · rintro (h | hfed)
      · cases h
      · exact .inl hfed
    · rintro (hfed | ⟨hingest, -⟩)
      · exact .inr hfed
      · rw [hingest, Bool.true_or] at hdefault
        exact absurd rfl hdefault

theorem nodup_databases (s : Settings) : s.databases.Nodup := by
  apply nodup_foldl_distinct
  split_ifs
  · exact List.nodup_singleton _
  · exact List.nodup_nil

/-! ### Their names -/

/-- A table's device lands in databases that were checked. -/
theorem valid_of_tableDevices {lib : SettingsLib} {canFd : Bool} {database : String} {index : Nat}
    {tables : List DeviceSection} {ds : List Device}
    (h : tableDevices lib canFd database index tables = .ok ds) :
    ∀ d ∈ ds, ∀ db ∈ d.databases, validDatabase lib db = true := by
  induction tables generalizing index ds with
  | nil =>
    obtain rfl := Except.ok.inj h
    exact nofun
  | cons t tables ih =>
    obtain ⟨d, -, h⟩ := bind_ok h
    split at h
    · cases h
    · rename_i hchecked
      obtain ⟨rest, hrest, h⟩ := bind_ok h
      obtain rfl := Except.ok.inj h
      rw [List.forall_mem_cons]
      refine ⟨fun db hdb => ?_, ih hrest⟩
      simpa using List.find?_eq_none.mp hchecked db (List.mem_cons_of_mem _ hdb)

theorem valid_of_buildDevices {lib : SettingsLib} {s : Settings} {sugar : List String}
    {tables : List DeviceSection} {ds : List Device}
    (hdefault : validDatabase lib s.defaultDatabase = true)
    (h : buildDevices lib s sugar tables = .ok ds) :
    ∀ d ∈ ds, ∀ db ∈ d.databases, validDatabase lib db = true := by
  obtain ⟨ts, hts, h⟩ := bind_ok h
  obtain ⟨-, -, h⟩ := bind_ok h
  obtain ⟨⟨n, es⟩, hes, h⟩ := bind_ok h
  obtain ⟨⟨m, fs⟩, hfs, h⟩ := bind_ok h
  obtain rfl := Except.ok.inj h
  refine forall_number (fun _ _ hd => hd) (forall_number (fun _ _ hd => hd) ?_ hes) hfs
  intro d hd
  rcases List.mem_append.mp hd with hd | hd
  · obtain ⟨name, -, rfl⟩ := List.mem_map.mp hd
    intro db hdb
    rw [List.mem_singleton.mp hdb]
    exact hdefault
  · exact valid_of_tableDevices hts d hd

theorem valid_of_mem_databases {lib : SettingsLib} {cli : Cli} {file : Option FileConfig}
    {ui : Option UiConfig} {env : Env} {r : Resolved} (h : resolve lib cli file ui env = .ok r)
    {f : Forward} (hf : r.settings.forward = some f) {db : String} (hdb : db ∈ r.settings.databases) :
    validDatabase lib db = true := by
  have hlayers := ofLayers_of_layers (layers_of_resolveLayered h)
  have hdefault : validDatabase lib r.settings.defaultDatabase = true := by
    have hchecked := hlayers.checked
    unfold defaultDatabase
    rw [hf] at hchecked ⊢
    unfold checkForward at hchecked
    dsimp only at hchecked
    split_ifs at hchecked with hvalid
    simpa using hvalid
  rcases mem_databases.mp hdb with ⟨d, hd, hdb⟩ | ⟨-, rfl⟩
  · obtain ⟨set, -, hbuilt⟩ := hlayers.devices
    exact valid_of_buildDevices hdefault hbuilt d hd db hdb
  · exact hdefault

end WireTap.Daemon.Settings
