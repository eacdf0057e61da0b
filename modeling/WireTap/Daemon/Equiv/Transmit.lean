import Mathlib.Data.List.Basic
import Mathlib.Tactic.SplitIfs
import WireTap.Lib.Run
import WireTap.Wire.Reference
import WireTap.Daemon.Transmit
import WireTap.Daemon.Equiv.Settings

/-!
# What reaches a bus

`resolve_transmits`: in every configuration that resolves, and every run of the bridge it starts, a
frame in a writer's hands was asked for by a client's transmit that named that device's bus and
declared no more than it carried, and the device is active; no transmit is handed over more than once,
and no responder is on a passive device.

`index_for_bus` looks a bus up among the CAN devices as they were opened, which is where the numbering
put it (`Numbered.bus_can`).  The invariant of a run (`Asked`) is that what was handed over, and then
what is queued, is in that order among what clients asked for.
-/

namespace WireTap.Daemon

/-- The transmit of a command that a client is not refused. -/
def ClientCommand.accepted : ClientCommand → Option Transmit
  | transmit bus arbId extended data declared =>
    if declared.toNat > data.length then none else some ⟨bus, arbId, extended, data⟩
  | _ => none

/-- Which is a transmit that declares no more than it carries. -/
theorem ClientCommand.accepted_eq_some {command : ClientCommand} {t : Transmit}
    (h : command.accepted = some t) : ∃ declared : UInt8,
      command = .transmit t.bus t.arbId t.extended t.data declared ∧
        declared.toNat ≤ t.data.length := by
  cases command with
  | transmit bus arbId extended data declared =>
    simp only [accepted] at h
    split_ifs at h with hlt
    obtain rfl := Option.some.inj h
    exact ⟨declared, rfl, Nat.le_of_not_lt hlt⟩
  | _ => cases h

namespace Bridge

variable {φ δ : Type} {s s' : Bridge φ δ}

/-- The transmits that clients asked for, in the order in which they did. -/
def accepted (s : Bridge φ δ) : List Transmit := s.heard.filterMap (·.2.accepted)

/-- A frame in a writer's hands is the one asked for on the device's bus, and the device is an active
one of those configured. -/
structure Rightly (can : Wire.CanLib φ) (settings : Settings) (h : Handed φ) : Prop where
  mem : h.device ∈ settings.canDevices
  active : h.device.mode = .active
  bus : h.asked.bus = h.device.bus
  frame : h.frame = can.data 0 h.asked.arbId h.asked.extended false false h.asked.data

/-- What was handed over and then what is queued is among what was asked for, in order. -/
structure Asked (can : Wire.CanLib φ) (settings : Settings) (s : Bridge φ δ) : Prop where
  opened : s.opened = settings.canDevices
  busOffset : s.busOffset = settings.busOffset
  among : (s.sent.map Handed.asked ++ s.queue).Sublist s.accepted
  rightly : ∀ h ∈ s.sent, Rightly can settings h

variable {can : Wire.CanLib φ} {decoder : Decoder δ} {settings : Settings}

theorem asked_startCapture : Asked can settings (startCapture settings : Bridge φ δ) :=
  ⟨rfl, rfl, List.Sublist.refl _, fun _ h => nomatch h⟩

/-! ### Reads -/

/-- All that a command does: it is heard, and a transmit is queued where there is room. -/
theorem reply_fields (s : Bridge φ δ) (client : Nat) (command : ClientCommand) :
    ∃ queued, (queued = [] ∨ queued = command.accepted.toList) ∧
      (s.reply client command).1 =
        { s with heard := s.heard ++ [(client, command)], queue := s.queue ++ queued } := by
  cases command with
  | transmit bus arbId extended data declared =>
    simp only [reply, ClientCommand.accepted]
    split_ifs with hlt
    · exact ⟨[], .inl rfl, by simp⟩
    · unfold trySend
      dsimp only
      split_ifs
      · exact ⟨[⟨bus, arbId, extended, data⟩], .inr rfl, rfl⟩
      · exact ⟨[], .inl rfl, by simp⟩
  | _ => exact ⟨[], .inl rfl, by simp [reply]⟩

theorem Asked.reply (hs : Asked can settings s) (client : Nat) (command : ClientCommand) :
    Asked can settings (s.reply client command).1 := by
  obtain ⟨queued, hqueued, heq⟩ := reply_fields s client command
  rw [heq]
  refine ⟨hs.opened, hs.busOffset, ?_, hs.rightly⟩
  have haccepted : accepted { s with
      heard := s.heard ++ [(client, command)], queue := s.queue ++ queued } =
        s.accepted ++ command.accepted.toList := by
    unfold accepted
    rw [List.filterMap_append]
    cases h : command.accepted <;> simp [h]
  rw [haccepted, ← List.append_assoc]
  refine hs.among.append ?_
  rcases hqueued with rfl | rfl
  · exact List.nil_sublist _
  · exact List.Sublist.refl _

theorem Asked.replies (hs : Asked can settings s) (client : Nat) (commands : List ClientCommand) :
    Asked can settings (s.replies client commands) := by
  induction commands generalizing s with
  | nil => exact hs
  | cons command commands ih => exact ih (hs.reply client command)

/-! ### Transmits -/

/-- The device on the bus a transmit names, once the devices are numbered. -/
theorem bus_of_indexForBus {bus : SourceId} {device : Device}
    (hnumbered : Settings.Numbered settings.busOffset settings.devices)
    (h : (indexForBus bus settings.busOffset settings.canDevices.length).bind
      (settings.canDevices[·]?) = some device) : device ∈ settings.canDevices ∧
        bus = device.bus := by
  obtain ⟨i, hi, hdevice⟩ := Option.bind_eq_some_iff.mp h
  obtain ⟨-, hbus⟩ := indexForBus_eq_some hi
  refine ⟨List.mem_of_getElem? hdevice, UInt8.toNat_inj.mp ?_⟩
  rw [hbus, hnumbered.bus_can hdevice]

theorem Asked.transmit (hs : Asked can settings s)
    (hnumbered : Settings.Numbered settings.busOffset settings.devices) {t : Transmit}
    {queue : List Transmit} (hqueue : s.queue = t :: queue) :
    Asked can settings ({ s with queue }.transmit can t) := by
  have hamong := hs.among
  rw [hqueue] at hamong
  -- Passed over, a transmit is one fewer of those asked for.
  have hpassed : (s.sent.map Handed.asked ++ queue).Sublist s.accepted :=
    ((List.sublist_cons_self t queue).append_left _).trans hamong
  unfold Bridge.transmit
  dsimp only
  split
  · exact ⟨hs.opened, hs.busOffset, hpassed, hs.rightly⟩
  · rename_i device hdevice
    split_ifs with hmode
    · exact ⟨hs.opened, hs.busOffset, hpassed, hs.rightly⟩
    · refine ⟨hs.opened, hs.busOffset, ?_, fun h hh => ?_⟩
      · show ((s.sent ++ [_]).map Handed.asked ++ queue).Sublist s.accepted
        rw [List.map_append, List.append_assoc]
        exact hamong
      · rcases List.mem_append.mp hh with hh | hh
        · exact hs.rightly h hh
        · obtain rfl := List.mem_singleton.mp hh
          rw [hs.busOffset, hs.opened] at hdevice
          obtain ⟨hmem, hbus⟩ := bus_of_indexForBus hnumbered hdevice
          have hactive : device.mode = .active := by
            cases h : device.mode
            · rfl
            · exact absurd h hmode
          exact ⟨hmem, hactive, hbus, rfl⟩

theorem asked_step (hnumbered : Settings.Numbered settings.busOffset settings.devices)
    {e : BridgeEvent} (hs : Asked can settings s) (h : s.step can decoder e = some s') :
    Asked can settings s' := by
  cases e with
  | connect =>
    obtain rfl := Option.some.inj h
    exact ⟨hs.opened, hs.busOffset, hs.among, hs.rightly⟩
  | disconnect client =>
    obtain rfl := Option.some.inj h
    exact ⟨hs.opened, hs.busOffset, hs.among, hs.rightly⟩
  | read client bytes =>
    obtain ⟨d, -, h⟩ := Option.bind_eq_some_iff.mp h
    obtain rfl := Option.some.inj h
    refine Asked.replies ?_ client _
    exact ⟨hs.opened, hs.busOffset, hs.among, hs.rightly⟩
  | transmit =>
    simp only [step] at h
    split at h
    · cases h
    · rename_i t queue hqueue
      obtain rfl := Option.some.inj h
      exact hs.transmit hnumbered hqueue

/-! ### Responders -/

/-- A responder is on an active device. -/
theorem active_of_mem_responders {d : Device}
    (h : d ∈ (startCapture settings : Bridge φ δ).responders) : d.mode = .active := by
  unfold startCapture at h
  dsimp only at h
  split at h
  · obtain ⟨i, hi, hd⟩ := List.mem_filterMap.mp h
    obtain ⟨⟨c, j⟩, hc, rfl⟩ := List.mem_map.mp hi
    obtain ⟨hmem, harmed⟩ := List.mem_filter.mp hc
    obtain rfl : c = d := by
      have hget := List.mem_zipIdx_iff_getElem?.mp hmem
      exact Option.some.inj (hget.symm.trans hd)
    simp only [Bool.and_eq_true, decide_eq_true_eq] at harmed
    exact harmed.1
  · cases h

/-! ### Runs -/

end Bridge

/-- In every configuration that resolves: the buses, and what reaches them in every run. -/
theorem resolve_transmits {φ δ : Type} (lib : SettingsLib) (can : Wire.CanLib φ)
    (decoder : Decoder δ) (cli : Cli) (file : Option FileConfig) (ui : Option UiConfig) (env : Env)
    (r : Resolved) (h : Settings.resolve lib cli file ui env = .ok r) :
    (r.settings.devices.map (·.bus)).Nodup ∧
    (∀ i d, r.settings.canDevices[i]? = some d →
      d.bus.toNat = r.settings.busOffset.toNat + i) ∧
    (∀ c ∈ r.settings.devices, ∀ d ∈ r.settings.devices, c.isCan = true → d.isCan = false →
      c.bus < d.bus) ∧
    (∀ d ∈ (Bridge.startCapture r.settings : Bridge φ δ).responders, d.mode = .active) ∧
    ∀ (es : List BridgeEvent) (s : Bridge φ δ),
      runs (Bridge.step can decoder) (Bridge.startCapture r.settings) es = some s →
      (s.sent.map Handed.asked).Sublist (s.heard.filterMap (·.2.accepted)) ∧
      ∀ handed ∈ s.sent, handed.device ∈ r.settings.canDevices ∧ handed.device.mode = .active ∧
        handed.frame = can.data 0 handed.asked.arbId handed.asked.extended false false
          handed.asked.data ∧
        ∃ client declared, (client, .transmit handed.device.bus handed.asked.arbId
            handed.asked.extended handed.asked.data declared) ∈ s.heard ∧
          declared.toNat ≤ handed.asked.data.length := by
  have hnumbered := Settings.resolve_numbered h
  refine ⟨hnumbered.nodup, fun i d hd => hnumbered.bus_can hd, ?_, ?_, ?_⟩
  · intro c hc d hd hcan hserial
    exact UInt8.lt_iff_toNat_lt.mpr (hnumbered.bus_lt hc hcan hd hserial)
  · intro d hd
    exact Bridge.active_of_mem_responders hd
  · intro es s hrun
    have hs : s.Asked can r.settings :=
      invariant_of_runs (Bridge.asked_step hnumbered) Bridge.asked_startCapture hrun
    have hamong := (List.sublist_append_left _ _).trans hs.among
    refine ⟨hamong, fun handed hh => ?_⟩
    obtain ⟨hmem, hactive, hbus, hframe⟩ := hs.rightly handed hh
    have hasked := hamong.subset (List.mem_map_of_mem hh)
    obtain ⟨⟨client, command⟩, hheard, haccepted⟩ := List.mem_filterMap.mp hasked
    obtain ⟨declared, rfl, hle⟩ := ClientCommand.accepted_eq_some haccepted
    rw [← hbus]
    exact ⟨hmem, hactive, hframe, client, declared, hheard, hle⟩

/-- Two CAN interfaces from a flag and a serial line from the file, past an offset. -/
def mixedCli : Cli := { Cli.defaults with iface := some "can0, can1", busOffset := 2 }

def mixedFile : FileConfig :=
  { (default : FileConfig) with
    device :=
      [{ (default : DeviceSection) with
        kind := some "serial"
        interface := some "/dev/ttyUSB0"
        baud := some 9600
        capture := some "raw" }] }

/-- The decoder on `E7 E7`, which makes the stream binary, and then on an `F1 00` command of three
bytes. -/
def oneTransmit : Decoder Bool where
  new := false
  feed := fun binary bytes => match binary, bytes with
    | false, [0xE7, 0xE7] => (true, [])
    | true, [0xF1, 0x00, i₀, i₁, 0x00, 0x00, bus, 0x03, a, b, c] =>
      (true, [.transmit bus (i₁.toUInt32 <<< 8 ||| i₀.toUInt32) false [a, b, c] 3])
    | _, _ => (binary, [])

/-- A client asks for a frame on bus 3. -/
def mixedRun : List BridgeEvent :=
  [.connect, .read 0 [0xE7, 0xE7],
    .read 0 [0xF1, 0x00, 0x23, 0x01, 0x00, 0x00, 3, 0x03, 0xAA, 0xBB, 0xCC], .transmit]

/-- Which is the second interface's. -/
theorem resolve_transmits_mixed :
    ∃ r, Settings.resolve .bare mixedCli (some mixedFile) none default = .ok r ∧
      r.settings.devices.map (·.bus) = [2, 3, 4] ∧ (r.settings.devices.map (·.bus)).Nodup ∧
      ∃ s : Bridge Wire.Reference.CanFrame Bool,
        runs (Bridge.step Wire.Reference.canLib oneTransmit) (Bridge.startCapture r.settings)
          mixedRun = some s ∧
        s.sent.map (·.device.interface) = ["can1"] ∧
        ∀ handed ∈ s.sent, handed.device.mode = .active := by
  obtain ⟨r, hr⟩ : ∃ r, Settings.resolve .bare mixedCli (some mixedFile) none default = .ok r :=
    ⟨_, rfl⟩
  have h := resolve_transmits .bare Wire.Reference.canLib oneTransmit _ _ _ _ r hr
  obtain rfl := Except.ok.inj hr
  refine ⟨_, rfl, by decide, h.1, _, rfl, by decide, fun handed hh => ?_⟩
  exact ((h.2.2.2.2 mixedRun _ rfl).2 handed hh).2.1

end WireTap.Daemon
