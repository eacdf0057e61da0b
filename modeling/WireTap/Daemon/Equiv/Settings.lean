import Mathlib.Data.List.Basic
import Mathlib.Data.List.Nodup
import Mathlib.Tactic.SplitIfs
import WireTap.Daemon.Settings
import WireTap.Lib.Fallible

/-!
# How devices are numbered

`resolve_numbered`: in every configuration that resolves, the CAN devices have the buses from the
offset on, in order, and the serial devices the buses after them; so no two devices share a bus.

`number` is one pass over the devices.  It gives the devices of its kind consecutive buses
(`number_buses`) and leaves the others as they are (`number_others`), so the second pass keeps what
the first one did.
-/

namespace WireTap.Daemon

/-! ### Buses -/

/-- A bus that there is, is the index past the offset. -/
theorem toNat_of_busForIndex {index : Nat} {busOffset bus : UInt8}
    (h : busForIndex index busOffset = some bus) : bus.toNat = busOffset.toNat + index := by
  unfold busForIndex at h
  split_ifs at h with hlt
  obtain rfl := Option.some.inj h
  rw [UInt8.toNat_ofNat', Nat.mod_eq_of_lt hlt.2, Nat.add_comm]

/-- And it is the index a client means by it. -/
theorem indexForBus_eq_some {bus busOffset : UInt8} {count index : Nat}
    (h : indexForBus bus busOffset count = some index) :
    index < count ∧ bus.toNat = busOffset.toNat + index := by
  unfold indexForBus at h
  split_ifs at h with hle
  obtain rfl := Option.some.inj h
  have hbus : busOffset.toNat ≤ bus.toNat := UInt8.le_iff_toNat_le.mp hle.1
  exact ⟨hle.2, by omega⟩

/-- A device keeps its kind when it is numbered. -/
theorem Device.isCan_with_bus (d : Device) (bus : SourceId) :
    ({ d with bus } : Device).isCan = d.isCan := rfl

namespace Settings

/-! ### One pass -/

variable {busOffset : UInt8} {can : Bool}

/-- A pass that went through gave its first device the next bus, or left it to the other pass. -/
theorem number_cons {index n n' : Nat} {d : Device} {devices devices' : List Device}
    (h : number busOffset can index n (d :: devices) = .ok (n', devices')) :
    (d.isCan = can ∧ ∃ bus rest, busForIndex n busOffset = some bus ∧
      number busOffset can (index + 1) (n + 1) devices = .ok (n', rest) ∧
      devices' = { d with bus } :: rest) ∨
    (d.isCan = !can ∧ ∃ rest, number busOffset can (index + 1) n devices = .ok (n', rest) ∧
      devices' = d :: rest) := by
  unfold number at h
  split_ifs at h with hkind
  · split at h
    · cases h
    · rename_i bus hbus
      obtain ⟨⟨m, rest⟩, hrest, h⟩ := bind_ok h
      obtain ⟨rfl, rfl⟩ := Prod.mk.inj (Except.ok.inj h)
      exact .inl ⟨hkind, bus, rest, hbus, hrest, rfl⟩
  · obtain ⟨⟨m, rest⟩, hrest, h⟩ := bind_ok h
    obtain ⟨rfl, rfl⟩ := Prod.mk.inj (Except.ok.inj h)
    exact .inr ⟨Bool.eq_not_of_ne hkind, rest, hrest, rfl⟩

/-- The devices of the pass's kind, by bus, and how far the numbers have come. -/
theorem number_buses {index n n' : Nat} {devices devices' : List Device}
    (h : number busOffset can index n devices = .ok (n', devices')) :
    (devices'.filter (·.isCan == can)).map (·.bus.toNat) =
        List.range' (busOffset.toNat + n) (devices'.filter (·.isCan == can)).length ∧
      n' = n + (devices'.filter (·.isCan == can)).length := by
  induction devices generalizing index n n' devices' with
  | nil =>
    obtain ⟨rfl, rfl⟩ := Prod.mk.inj (Except.ok.inj h)
    exact ⟨rfl, rfl⟩
  | cons d devices ih =>
    rcases number_cons h with ⟨hkind, bus, rest, hbus, hrest, rfl⟩ | ⟨hkind, rest, hrest, rfl⟩
    · obtain ⟨hmap, hcount⟩ := ih hrest
      have hfilter : ({ d with bus } :: rest).filter (·.isCan == can) =
          { d with bus } :: rest.filter (·.isCan == can) :=
        List.filter_cons_of_pos (beq_iff_eq.mpr hkind)
      rw [hfilter]
      constructor
      · rw [List.map_cons, hmap, List.length_cons, List.range'_succ, toNat_of_busForIndex hbus]
        rfl
      · rw [List.length_cons, hcount]
        omega
    · have hfilter : (d :: rest).filter (·.isCan == can) = rest.filter (·.isCan == can) :=
        List.filter_cons_of_neg (by simp [hkind])
      rw [hfilter]
      exact ih hrest

/-- The devices of the other kind are as they were. -/
theorem number_others {index n n' : Nat} {devices devices' : List Device}
    (h : number busOffset can index n devices = .ok (n', devices')) :
    devices'.filter (·.isCan == !can) = devices.filter (·.isCan == !can) := by
  induction devices generalizing index n n' devices' with
  | nil =>
    obtain ⟨rfl, rfl⟩ := Prod.mk.inj (Except.ok.inj h)
    rfl
  | cons d devices ih =>
    rcases number_cons h with ⟨hkind, bus, rest, hbus, hrest, rfl⟩ | ⟨hkind, rest, hrest, rfl⟩
    · rw [List.filter_cons_of_neg (by simp [Device.isCan_with_bus, hkind]),
        List.filter_cons_of_neg (by simp [hkind]), ih hrest]
    · rw [List.filter_cons_of_pos (by simp [hkind]), List.filter_cons_of_pos (by simp [hkind]),
        ih hrest]

/-! ### Both passes -/

/-- The CAN devices have the buses from the offset on, the serial ones those after. -/
structure Numbered (busOffset : UInt8) (devices : List Device) : Prop where
  can : (devices.filter (·.isCan)).map (·.bus.toNat) =
    List.range' busOffset.toNat (devices.filter (·.isCan)).length
  serial : (devices.filter (!·.isCan)).map (·.bus.toNat) =
    List.range' (busOffset.toNat + (devices.filter (·.isCan)).length)
      (devices.filter (!·.isCan)).length

theorem numbered_of_number {n n' : Nat} {devices devices' devices'' : List Device}
    (h : number busOffset true 0 0 devices = .ok (n, devices'))
    (h' : number busOffset false 0 n devices' = .ok (n', devices'')) :
    Numbered busOffset devices'' := by
  obtain ⟨hcan, hn⟩ := number_buses h
  obtain ⟨hserial, -⟩ := number_buses h'
  have hkept := number_others h'
  simp only [Bool.not_false, beq_true, beq_false, Nat.add_zero, Nat.zero_add] at hcan hn hserial hkept
  constructor
  · rw [hkept]
    exact hcan
  · rw [hkept, ← hn]
    exact hserial

namespace Numbered

variable {devices : List Device}

/-- The `i`th CAN device's bus. -/
theorem bus_can (h : Numbered busOffset devices) {i : Nat} {d : Device}
    (hd : (devices.filter (·.isCan))[i]? = some d) : d.bus.toNat = busOffset.toNat + i := by
  have hget : ((devices.filter (·.isCan)).map (·.bus.toNat))[i]? = some d.bus.toNat := by
    rw [List.getElem?_map, hd]
    rfl
  rw [h.can] at hget
  obtain ⟨hi, hget⟩ := List.getElem?_eq_some_iff.mp hget
  rw [List.getElem_range'] at hget
  omega

/-- A serial device's bus is past every CAN device's. -/
theorem bus_lt (h : Numbered busOffset devices) {c d : Device} (hc : c ∈ devices)
    (hcan : c.isCan = true) (hd : d ∈ devices) (hserial : d.isCan = false) :
    c.bus.toNat < d.bus.toNat := by
  have hcbus : c.bus.toNat ∈ (devices.filter (·.isCan)).map (·.bus.toNat) :=
    List.mem_map.mpr ⟨c, List.mem_filter.mpr ⟨hc, hcan⟩, rfl⟩
  have hdbus : d.bus.toNat ∈ (devices.filter (!·.isCan)).map (·.bus.toNat) :=
    List.mem_map.mpr ⟨d, List.mem_filter.mpr ⟨hd, by simp [hserial]⟩, rfl⟩
  rw [h.can, List.mem_range'_1] at hcbus
  rw [h.serial, List.mem_range'_1] at hdbus
  omega

/-- No two devices share a bus. -/
theorem nodup (h : Numbered busOffset devices) : (devices.map (·.bus)).Nodup := by
  have hperm := List.filter_append_perm (fun d : Device => d.isCan) devices
  have hbuses : ((devices.filter (·.isCan) ++ devices.filter (!·.isCan)).map (·.bus.toNat)).Nodup := by
    rw [List.map_append, h.can, h.serial, List.range'_append_1]
    exact List.nodup_range'
  have hnat : (devices.map (·.bus.toNat)).Nodup := (hperm.map _).nodup_iff.mp hbuses
  have hmap : devices.map (·.bus.toNat) = (devices.map (·.bus)).map UInt8.toNat := by
    rw [List.map_map]
    rfl
  rw [hmap] at hnat
  exact hnat.of_map

end Numbered

/-! ### Whole configurations -/

/-- What a configuration that resolved went through. -/
structure Layers (lib : SettingsLib) (cli : Cli) (file : Option FileConfig) (ui : Option UiConfig)
    (env : Env) (r : Resolved) : Prop where
  intro ::
  retired : (cli.pgEnable || (file.map (·.retiredPostgresSink)).getD false) = false
  layers : ∃ s₀ s₁ set dir devices, ofCli lib cli file env = .ok s₀ ∧
    file.elim (.ok s₀) (applyFile lib cli env · s₀) = .ok s₁ ∧
    deviceSet lib cli file ui = .ok set ∧
    overDirection s₁.defaultDir cli.pgDir = .ok dir ∧
    checkForward lib (fillGaps lib env ui { s₁ with defaultDir := dir }).forward = .ok () ∧
    buildDevices lib (fillGaps lib env ui { s₁ with defaultDir := dir }) (parseIfaces set.1) set.2 =
      .ok devices ∧
    r.settings = { fillGaps lib env ui { s₁ with defaultDir := dir } with devices }

theorem layers_of_resolveLayered {lib : SettingsLib} {cli : Cli} {file : Option FileConfig}
    {ui : Option UiConfig} {env : Env} {r : Resolved}
    (h : resolveLayered lib cli file ui env = .ok r) : Layers lib cli file ui env r := by
  unfold resolveLayered at h
  split_ifs at h with hretired
  obtain ⟨s₀, hcli, h⟩ := bind_ok h
  obtain ⟨s₁, hfile, h⟩ := bind_ok h
  obtain ⟨⟨sugar, tables⟩, hset, h⟩ := bind_ok h
  obtain ⟨dir, hdir, h⟩ := bind_ok h
  obtain ⟨_, hcheck, h⟩ := bind_ok h
  obtain ⟨devices, hdevices, h⟩ := bind_ok h
  obtain rfl := Except.ok.inj h
  exact ⟨by simpa using hretired, s₀, s₁, (sugar, tables), dir, devices, hcli, hfile, hset, hdir,
    hcheck, hdevices, rfl⟩

theorem numbered_of_buildDevices {lib : SettingsLib} {s : Settings} {sugar : List String}
    {tables : List DeviceSection} {devices : List Device}
    (h : buildDevices lib s sugar tables = .ok devices) : Numbered s.busOffset devices := by
  obtain ⟨ofTables, -, h⟩ := bind_ok h
  obtain ⟨-, -, h⟩ := bind_ok h
  obtain ⟨⟨n, devices'⟩, hcan, h⟩ := bind_ok h
  obtain ⟨⟨n', devices''⟩, hserial, h⟩ := bind_ok h
  obtain rfl := Except.ok.inj h
  exact numbered_of_number hcan hserial

theorem resolve_numbered {lib : SettingsLib} {cli : Cli} {file : Option FileConfig}
    {ui : Option UiConfig} {env : Env} {r : Resolved} (h : resolve lib cli file ui env = .ok r) :
    Numbered r.settings.busOffset r.settings.devices := by
  obtain ⟨-, s₀, s₁, set, dir, devices, -, -, -, -, -, hdevices, hr⟩ := layers_of_resolveLayered h
  rw [hr]
  exact numbered_of_buildDevices hdevices

end Settings

/-! ### A library to run on -/

/-- The gateway's two rules for names, and a disk with nothing on it. -/
def SettingsLib.bare : SettingsLib where
  linux := true
  validDatabaseName := fun name =>
    (name.toList.head?.any Char.isLower) && name.length ≤ 63 &&
      name.toList.all fun c => c.isLower || c.isDigit || c = '_'
  validDaemonId := fun name =>
    (name.toList.head?.any fun c => c.isLower || c.isDigit) && name.length ≤ 63 &&
      name.toList.all fun c => c.isLower || c.isDigit || c = '.' || c = '_' || c = '-'
  parseParity := fun text =>
    if text = "none" then .ok .none
    else if text = "even" then .ok .even
    else if text = "odd" then .ok .odd
    else .error "unknown parity"
  validateLine := fun _ => .ok ()
  readCatalogue := fun path => .error s!"cannot read catalog {path}: no such file"
  parseIp := fun _ => none
  showIp := fun _ => ""
  debug := fun text => "\"" ++ text ++ "\""
  join := fun dir name => dir ++ "/" ++ name
  sibling := fun path database => path ++ "-" ++ database
  fileExists := fun _ => false

end WireTap.Daemon
