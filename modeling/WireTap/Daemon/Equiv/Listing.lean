import Mathlib.Data.List.Basic
import Mathlib.Tactic.SplitIfs
import WireTap.Daemon.Equiv.Control
import WireTap.Daemon.Equiv.Layers
import WireTap.Daemon.Form

/-!
# The layer shown is the layer in force

`listing_in_force`: for every setting but the secrets, the layer `sourceOf` names is the highest one
whose value the settings use; where a UI cannot change it, nothing the UI writes for it changes the
settings; where it can, the settings use what it wrote; and that is what `listing` shows.

`resolve` and `sourceOf` have the layers' order apart.  What a key comes to is the file's value, else
the flag's with the UI's under it (`has_of_layers`), which is one rule for every scalar but the two
that turn a section on (`has_enable`).
-/

namespace WireTap.Daemon

/-- What `clap` makes of a command line: what was not given is at its default, and a switch that was
given is on. -/
structure Cli.Parsed (cli : Cli) : Prop where
  iface : cli.iface.isSome = cli.isGiven "iface"
  forwardEnable : cli.forwardEnable = cli.isGiven "forward_enable"
  ingestEnable : cli.ingestEnable = cli.isGiven "ingest_enable"
  default : ∀ k : UiKey, cli.isGiven k.flag = false →
    UiKey.flagValue cli k = UiKey.flagValue .defaults k

/-! ### What the settings use -/

/-- The device a UI's is. -/
structure UiDevice.Is (s : Settings) (u : UiDevice) (d : Device) : Prop where
  interface : d.interface = u.interface
  mode : d.mode = .passive
  database : d.database = u.database.getD s.defaultDatabase
  kind : d.kind = .can (u.fd.getD s.canFd)

/-- The settings have `v` for a key. -/
def Settings.Has (s : Settings) : (k : UiKey) → k.Value → Prop
  | .devices, v => List.Forall₂ (UiDevice.Is s) v s.devices
  | .apiKey, v => s.forward.map (·.apiKey) = some v
  | .token, v => s.ingest.map (·.token) = some v
  | .forwardEnable, v => s.forward.isSome = v
  | .forwardHost, v => s.forward.map (·.host) = some v
  | .forwardPort, v => s.forward.map (·.port) = some v
  | .forwardDatabase, v => s.forward.map (·.database) = some v
  | .batchSize, v => s.forward.map (·.batching.size) = some v
  | .flushInterval, v => s.forward.map (·.batching.flushInterval) = some v
  | .queueSize, v => s.forward.map (·.batching.queueSize) = some v
  | .cacheMaxMb, v => s.forward.map (·.batching.cacheMaxMb) = some v
  | .queueFlushPct, v => s.forward.map (·.batching.queueFlushPct) = some v
  | .ingestEnable, v => s.ingest.isSome = v
  | .ingestPort, v => s.ingest.map (·.port) = some v
  | .logLevel, v => LogLevel.parse v = some s.logLevel

/-- The key's section is on. -/
def UiKey.On (s : Settings) : UiKey → Prop
  | .devices | .forwardEnable | .ingestEnable | .logLevel => True
  | .token | .ingestPort => s.ingest.isSome = true
  | _ => s.forward.isSome = true

/-- The settings use the devices a layer names: the file's are its tables and its sugar, or `-i`'s
with its tables. -/
def UsesDevices (lib : SettingsLib) (cli : Cli) (file : Option FileConfig) (ui : UiConfig)
    (s : Settings) : Source → Prop
  | .file => ∃ f, file = some f ∧ (f.server.iface.isSome = true ∨ f.device ≠ []) ∧
      s.buildDevices lib (parseIfaces ((f.server.iface.or cli.iface).getD "")) f.device = .ok s.devices
  | .flag field => field = "iface" ∧ ∃ sugar, cli.iface = some sugar ∧
      s.buildDevices lib (parseIfaces sugar) ((file.map (·.device)).getD []) = .ok s.devices
  | .ui => ∃ v, ui.devices = some v ∧ s.Has .devices v
  | .default => s.buildDevices lib ["can0"] [] = .ok s.devices
  | .env _ => False

/-- The settings use the value a layer has for a scalar. -/
def UsesScalar (cli : Cli) (file : Option FileConfig) (ui : UiConfig) (s : Settings) (k : UiKey) :
    Source → Prop
  | .file => ∃ v, file.bind (UiKey.fileValue · k) = some v ∧ s.Has k v
  | .flag field => field = k.flag ∧ cli.isGiven field = true ∧
      ∃ v, UiKey.flagValue cli k = some v ∧ s.Has k v
  | .ui => ∃ v, UiKey.get ui k = some v ∧ s.Has k v
  | .default => ∃ v, UiKey.flagValue .defaults k = some v ∧ s.Has k v
  | .env _ => False

def Uses (lib : SettingsLib) (cli : Cli) (file : Option FileConfig) (ui : UiConfig) (s : Settings) :
    UiKey → Source → Prop
  | .devices => UsesDevices lib cli file ui s
  | k => UsesScalar cli file ui s k

/-- How high a layer is. -/
def Source.rank : Source → Nat
  | default => 0
  | ui => 1
  | env _ => 2
  | flag _ => 3
  | file => 4

/-- `source` is the highest layer whose value the settings use. -/
def HighestUsed (lib : SettingsLib) (cli : Cli) (file : Option FileConfig) (ui : UiConfig)
    (s : Settings) (k : UiKey) (source : Source) : Prop :=
  Uses lib cli file ui s k source ∧
    ∀ other, source.rank < other.rank → ¬ Uses lib cli file ui s k other

/-- The value the settings have, as `listing` shows one. -/
def Settings.shown {J : Type} (json : JsonLib J) (shown : List ListedDevice → J) (s : Settings) :
    UiKey → Option J
  | .devices => some (shown (s.devices.map Device.listed))
  | .apiKey | .token => none
  | .forwardEnable => some (json.bool.toValue s.forward.isSome)
  | .forwardHost => s.forward.map (json.string.toValue ·.host)
  | .forwardPort => s.forward.map (json.u16.toValue ·.port)
  | .forwardDatabase => s.forward.map (json.string.toValue ·.database)
  | .batchSize => s.forward.map (json.u64.toValue ·.batching.size)
  | .flushInterval => s.forward.map (json.f64.toValue ·.batching.flushInterval)
  | .queueSize => s.forward.map (json.u64.toValue ·.batching.queueSize)
  | .cacheMaxMb => s.forward.map (json.u64.toValue ·.batching.cacheMaxMb)
  | .queueFlushPct => s.forward.map (json.u8.toValue ·.batching.queueFlushPct)
  | .ingestEnable => some (json.bool.toValue s.ingest.isSome)
  | .ingestPort => s.ingest.map (json.u16.toValue ·.port)
  | .logLevel => some (json.string.toValue s.logLevel.asStr)

/-! ### Keys -/

namespace UiKey

/-- One of `scalar_settings!`. -/
def Scalar (k : UiKey) : Prop := k ≠ devices ∧ k ≠ apiKey ∧ k ≠ token

/-- A scalar that is not a section's switch. -/
def Plain (k : UiKey) : Prop := k.Scalar ∧ k ≠ forwardEnable ∧ k ≠ ingestEnable

theorem inFile_eq {k : UiKey} (hk : k.Scalar) (f : FileConfig) :
    inFile f k = (fileValue f k).isSome := by
  obtain ⟨hdevices, -, -⟩ := hk
  cases k <;> first | rfl | exact absurd rfl hdevices

/-- A flag that was given stands, else the UI's value is under it. -/
theorem flagValue_beneath {k : UiKey} (hk : k.Scalar) (ui : UiConfig) (cli : Cli) :
    flagValue (ui.beneath cli) k =
      if cli.isGiven k.flag then flagValue cli k else (get ui k).or (flagValue cli k) := by
  have hfill {α : Type} (value : Option α) (now : α) :
      some (inForce cli k none value now) =
        if cli.isGiven k.flag then some now else value.or (some now) := by
    unfold inForce
    cases value with
    | none => simp
    | some v =>
      dsimp only [Option.getD_none]
      split_ifs <;> rfl
  obtain ⟨hdevices, hapi, htoken⟩ := hk
  cases k <;> first
    | exact absurd rfl hdevices
    | exact absurd rfl hapi
    | exact absurd rfl htoken
    | exact (congrArg some (fill_eq cli _ none _ _)).trans (hfill _ _)

theorem mem_listed (k : UiKey) : k ∈ listed := by
  cases k <;> decide

end UiKey

namespace Settings

/-- `[forward]` where it is on, the gaps that are filled apart. -/
theorem forward_written {lib : SettingsLib} {cli : Cli} {file : Option FileConfig}
    {ui : Option UiConfig} {env : Env} {s : Settings} (h : OfLayers lib cli file ui env s)
    (hon : s.forward.isSome = true) : ∃ f, s.forward = some f ∧
      f.host = (writtenForward lib cli file env).host ∧
      f.port = (writtenForward lib cli file env).port ∧
      f.database = (writtenForward lib cli file env).database ∧
      f.batching = { (writtenForward lib cli file env).batching with
        legacyCachePath := f.batching.legacyCachePath } := by
  rw [h.forward] at hon ⊢
  unfold forwardOf at hon ⊢
  split_ifs at hon ⊢
  · exact ⟨_, rfl, rfl, rfl, rfl, rfl⟩
  · cases hon

theorem ingest_written {lib : SettingsLib} {cli : Cli} {file : Option FileConfig}
    {ui : Option UiConfig} {env : Env} {s : Settings} (h : OfLayers lib cli file ui env s)
    (hon : s.ingest.isSome = true) :
    ∃ i, s.ingest = some i ∧ i.port = (writtenIngest cli file).port := by
  rw [h.ingest] at hon ⊢
  unfold ingestOf at hon ⊢
  split_ifs at hon ⊢
  · exact ⟨_, rfl, rfl⟩
  · cases hon

/-- What a scalar comes to: the file's value, else the flag's. -/
theorem has_of_layers {lib : SettingsLib} {cli : Cli} {file : Option FileConfig}
    {ui : Option UiConfig} {env : Env} {s : Settings} (h : OfLayers lib cli file ui env s)
    {k : UiKey} (hk : k.Plain) (hon : k.On s) {v : k.Value}
    (hv : (file.bind (UiKey.fileValue · k)).or (UiKey.flagValue cli k) = some v) : s.Has k v := by
  have hgetD {α : Type} {x : Option α} {a b : α} (hx : x.or (some a) = some b) : x.getD a = b := by
    cases x <;> exact Option.some.inj hx
  have hmap {α β : Type} {x : Option α} {a : α} {g : α → β} {b : β} (hx : x = some a)
      (ha : g a = b) : x.map g = some b := by
    rw [hx, Option.map_some, ha]
  -- A key of a section that is on is a field of it, written by the two layers.
  obtain ⟨⟨hdevices, hapi, htoken⟩, hfenable, hienable⟩ := hk
  cases k with
  | devices => exact absurd rfl hdevices
  | apiKey => exact absurd rfl hapi
  | token => exact absurd rfl htoken
  | forwardEnable => exact absurd rfl hfenable
  | ingestEnable => exact absurd rfl hienable
  | logLevel =>
    have hlevel := h.logLevel
    unfold logLevelOf parseLogLevel at hlevel
    show LogLevel.parse v = some s.logLevel
    rw [show v = _ from (hgetD hv).symm]
    split at hlevel
    · rename_i level hparse
      rw [← Except.ok.inj hlevel]
      exact hparse
    · cases hlevel
  | ingestPort =>
    obtain ⟨i, hi, hport⟩ := ingest_written h hon
    exact hmap hi (hport.trans (hgetD hv))
  | forwardHost =>
    obtain ⟨f, hf, hhost, -, -, -⟩ := forward_written h hon
    exact hmap hf (hhost.trans (hgetD hv))
  | forwardPort =>
    obtain ⟨f, hf, -, hport, -, -⟩ := forward_written h hon
    exact hmap hf (hport.trans (hgetD hv))
  | forwardDatabase =>
    obtain ⟨f, hf, -, -, hdatabase, -⟩ := forward_written h hon
    exact hmap hf (hdatabase.trans (hgetD hv))
  | batchSize =>
    obtain ⟨f, hf, -, -, -, hbatching⟩ := forward_written h hon
    exact hmap hf ((congrArg Batching.size hbatching).trans (hgetD hv))
  | flushInterval =>
    obtain ⟨f, hf, -, -, -, hbatching⟩ := forward_written h hon
    exact hmap hf ((congrArg Batching.flushInterval hbatching).trans (hgetD hv))
  | queueSize =>
    obtain ⟨f, hf, -, -, -, hbatching⟩ := forward_written h hon
    exact hmap hf ((congrArg Batching.queueSize hbatching).trans (hgetD hv))
  | cacheMaxMb =>
    obtain ⟨f, hf, -, -, -, hbatching⟩ := forward_written h hon
    exact hmap hf ((congrArg Batching.cacheMaxMb hbatching).trans (hgetD hv))
  | queueFlushPct =>
    obtain ⟨f, hf, -, -, -, hbatching⟩ := forward_written h hon
    exact hmap hf ((congrArg Batching.queueFlushPct hbatching).trans (hgetD hv))

/-! ### The layer of a scalar -/

theorem flagValue_isSome {k : UiKey} (hk : k.Scalar) (cli : Cli) :
    ∃ v, UiKey.flagValue cli k = some v := by
  obtain ⟨hdevices, hapi, htoken⟩ := hk
  cases k <;> first | exact ⟨_, rfl⟩ | contradiction

/-- Where a key comes to the file's value, else the flag's with the UI's under it, the highest layer
that has a value is the one in use. -/
theorem highestUsed_of_has {cli : Cli} {file : Option FileConfig} {ui : UiConfig} {s : Settings}
    (hcli : cli.Parsed) {k : UiKey} (hk : k.Scalar)
    (hhas : ∀ v, (file.bind (UiKey.fileValue · k)).or (UiKey.flagValue (ui.beneath cli) k) = some v →
      s.Has k v) :
    let source := Source.highest (file.any (UiKey.inFile · k))
      (if cli.isGiven k.flag then some k.flag else none) (UiKey.get ui k).isSome
    UsesScalar cli file ui s k source ∧
      ∀ other, source.rank < other.rank → ¬ UsesScalar cli file ui s k other := by
  have hfile : file.any (UiKey.inFile · k) = (file.bind (UiKey.fileValue · k)).isSome := by
    cases file with
    | none => rfl
    | some f => exact UiKey.inFile_eq hk f
  obtain ⟨w, hw⟩ := flagValue_isSome hk cli
  dsimp only
  rw [hfile]
  rw [UiKey.flagValue_beneath hk, hw] at hhas
  unfold Source.highest
  -- From the top: a layer that has no value is not in use, which rules it out below.
  cases hfv : file.bind (UiKey.fileValue · k) with
  | some v =>
    rw [hfv] at hhas
    refine ⟨⟨v, hfv, hhas v rfl⟩, fun other hrank => ?_⟩
    cases other <;> exact absurd hrank (by simp [Source.rank])
  | none =>
    rw [hfv, Option.none_or] at hhas
    have hno : ¬ UsesScalar cli file ui s k .file := by
      rintro ⟨v, hv, -⟩
      cases hfv.symm.trans hv
    cases hgiven : cli.isGiven k.flag with
    | true =>
      rw [hgiven, if_pos rfl] at hhas
      refine ⟨⟨rfl, hgiven, w, hw, hhas w rfl⟩, fun other hrank => ?_⟩
      cases other with
      | file => exact hno
      | _ => exact absurd hrank (by simp [Source.rank])
    | false =>
      rw [hgiven, if_neg Bool.false_ne_true] at hhas
      have hnoflag : ∀ field, ¬ UsesScalar cli file ui s k (.flag field) := by
        rintro field ⟨rfl, hfield, -⟩
        cases hgiven.symm.trans hfield
      cases hui : UiKey.get ui k with
      | some v =>
        rw [hui] at hhas
        refine ⟨⟨v, hui, hhas v rfl⟩, fun other hrank => ?_⟩
        cases other with
        | file => exact hno
        | flag field => exact hnoflag field
        | env _ => exact id
        | _ => exact absurd hrank (by simp [Source.rank])
      | none =>
        rw [hui] at hhas
        refine ⟨⟨w, (hcli.default k hgiven).symm.trans hw, hhas w rfl⟩, fun other hrank => ?_⟩
        cases other with
        | file => exact hno
        | flag field => exact hnoflag field
        | env _ => exact id
        | ui =>
          rintro ⟨v, hv, -⟩
          cases hui.symm.trans hv
        | default => exact absurd hrank (by simp [Source.rank])

/-! ### The switches -/

/-- A section's switch: the file's `enable = false` is not over a flag that was given. -/
def switch (inFile : Option Bool) (flag given : Bool) : Bool :=
  match inFile with
  | some true => true
  | some false => flag && given
  | none => flag

theorem switch_eq {inFile : Option Bool} {flag given v : Bool}
    (hfree : (inFile = some false && given) = false) (hv : inFile.or (some flag) = some v) :
    switch inFile flag given = v := by
  rcases inFile with _ | _ | _
  · exact Option.some.inj hv
  · obtain rfl : given = false := hfree
    exact (Bool.and_false flag).trans (Option.some.inj hv)
  · exact Option.some.inj hv

theorem isSome_ingest {lib : SettingsLib} {cli : Cli} {file : Option FileConfig}
    {ui : Option UiConfig} {env : Env} {s : Settings} (h : OfLayers lib cli file ui env s) :
    s.ingest.isSome = ingestOn cli file := by
  rw [h.ingest]
  unfold ingestOf
  split_ifs with hon
  · exact hon.symm
  · exact ((Bool.not_eq_true _).mp hon).symm

/-- A switch, where a flag is not over the file's `enable = false`. -/
theorem has_enable {lib : SettingsLib} {cli : Cli} {file : Option FileConfig}
    {ui : Option UiConfig} {env : Env} {s : Settings} (h : OfLayers lib cli file ui env s) :
    ((file.bind (·.forward.enable) = some false && cli.isGiven "forward_enable") = false →
      ∀ v, (file.bind (UiKey.fileValue · .forwardEnable)).or (UiKey.flagValue cli .forwardEnable) =
        some v → s.Has .forwardEnable v) ∧
    ((file.bind (·.ingest.enable) = some false && cli.isGiven "ingest_enable") = false →
      ∀ v, (file.bind (UiKey.fileValue · .ingestEnable)).or (UiKey.flagValue cli .ingestEnable) =
        some v → s.Has .ingestEnable v) := by
  constructor
  · intro hfree v hv
    exact h.fixed.isSome_forward.trans (switch_eq hfree hv)
  · intro hfree v hv
    exact (isSome_ingest h).trans (switch_eq hfree hv)

/-- And where it is, the section is on. -/
theorem on_of_flag {lib : SettingsLib} {cli : Cli} {file : Option FileConfig} {ui : UiConfig}
    {env : Env} {s : Settings} (hcli : cli.Parsed)
    (h : OfLayers lib (ui.beneath cli) file (some ui) env s) :
    ((file.bind (·.forward.enable) = some false && cli.isGiven "forward_enable") = true →
      cli.forwardEnable = true ∧ s.forward.isSome = true) ∧
    ((file.bind (·.ingest.enable) = some false && cli.isGiven "ingest_enable") = true →
      cli.ingestEnable = true ∧ s.ingest.isSome = true) := by
  constructor
  · intro hboth
    obtain ⟨hfile, hgiven⟩ := Bool.and_eq_true_iff.mp hboth
    have hflag : cli.forwardEnable = true := hcli.forwardEnable.trans hgiven
    have hlayered : (ui.beneath cli).forwardEnable = true := by
      have hvalue := UiKey.flagValue_beneath (k := .forwardEnable) ⟨nofun, nofun, nofun⟩ ui cli
      rw [show UiKey.flag .forwardEnable = "forward_enable" from rfl, if_pos hgiven] at hvalue
      exact (Option.some.inj hvalue).trans hflag
    refine ⟨hflag, h.fixed.isSome_forward.trans ?_⟩
    unfold forwardOn
    rw [of_decide_eq_true hfile, hlayered]
    exact hgiven
  · intro hboth
    obtain ⟨hfile, hgiven⟩ := Bool.and_eq_true_iff.mp hboth
    have hflag : cli.ingestEnable = true := hcli.ingestEnable.trans hgiven
    have hlayered : (ui.beneath cli).ingestEnable = true := by
      have hvalue := UiKey.flagValue_beneath (k := .ingestEnable) ⟨nofun, nofun, nofun⟩ ui cli
      rw [show UiKey.flag .ingestEnable = "ingest_enable" from rfl, if_pos hgiven] at hvalue
      exact (Option.some.inj hvalue).trans hflag
    refine ⟨hflag, (isSome_ingest h).trans ?_⟩
    unfold ingestOn
    rw [of_decide_eq_true hfile, hlayered]
    exact hgiven

/-- The file switches off what a flag switches on. -/
def Contested (cli : Cli) (file : Option FileConfig) : UiKey → Bool
  | .forwardEnable => file.bind (·.forward.enable) = some false && cli.isGiven "forward_enable"
  | .ingestEnable => file.bind (·.ingest.enable) = some false && cli.isGiven "ingest_enable"
  | _ => false

theorem sourceOf_scalar {k : UiKey} (hk : k.Scalar) (cli : Cli) (file : Option FileConfig)
    (ui : UiConfig) (env : Env) :
    sourceOf cli file ui env k =
      if Contested cli file k then .flag k.flag
      else .highest (file.any (UiKey.inFile · k))
        (if cli.isGiven k.flag then some k.flag else none) (UiKey.get ui k).isSome := by
  obtain ⟨hdevices, hapi, htoken⟩ := hk
  cases k <;> first | rfl | contradiction

/-- What a scalar comes to, unless the file switches off what a flag switches on. -/
theorem has_of_not_contested {lib : SettingsLib} {cli : Cli} {file : Option FileConfig}
    {ui : UiConfig} {env : Env} {s : Settings}
    (h : OfLayers lib (ui.beneath cli) file (some ui) env s) {k : UiKey} (hk : k.Scalar)
    (hon : k.On s) (hfree : Contested cli file k = false) {v : k.Value}
    (hv : (file.bind (UiKey.fileValue · k)).or (UiKey.flagValue (ui.beneath cli) k) = some v) :
    s.Has k v := by
  by_cases hforward : k = .forwardEnable
  · subst hforward
    exact (has_enable h).1 hfree v hv
  · by_cases hingest : k = .ingestEnable
    · subst hingest
      exact (has_enable h).2 hfree v hv
    · exact has_of_layers h ⟨hk, hforward, hingest⟩ hon hv

/-- A switch that is contested is the flag's. -/
theorem highestUsed_of_contested {lib : SettingsLib} {cli : Cli} {file : Option FileConfig}
    {ui : UiConfig} {env : Env} {s : Settings} (hcli : cli.Parsed)
    (h : OfLayers lib (ui.beneath cli) file (some ui) env s) {k : UiKey}
    (hboth : Contested cli file k = true) :
    UsesScalar cli file ui s k (.flag k.flag) ∧
      ∀ other, (Source.flag k.flag).rank < other.rank → ¬ UsesScalar cli file ui s k other := by
  have hhigher {other : Source} (hrank : (Source.flag k.flag).rank < other.rank) :
      other = .file := by
    cases other <;> first | rfl | exact absurd hrank (by simp [Source.rank])
  cases k with
  | forwardEnable =>
    obtain ⟨hflag, hsome⟩ := (on_of_flag hcli h).1 hboth
    obtain ⟨hfile, hgiven⟩ := Bool.and_eq_true_iff.mp hboth
    refine ⟨⟨rfl, hgiven, cli.forwardEnable, rfl, hsome.trans hflag.symm⟩, fun other hrank => ?_⟩
    obtain rfl := hhigher hrank
    rintro ⟨v, hv, hhas⟩
    obtain rfl := Option.some.inj ((of_decide_eq_true hfile).symm.trans hv)
    cases hsome.symm.trans hhas
  | ingestEnable =>
    obtain ⟨hflag, hsome⟩ := (on_of_flag hcli h).2 hboth
    obtain ⟨hfile, hgiven⟩ := Bool.and_eq_true_iff.mp hboth
    refine ⟨⟨rfl, hgiven, cli.ingestEnable, rfl, hsome.trans hflag.symm⟩, fun other hrank => ?_⟩
    obtain rfl := hhigher hrank
    rintro ⟨v, hv, hhas⟩
    obtain rfl := Option.some.inj ((of_decide_eq_true hfile).symm.trans hv)
    cases hsome.symm.trans hhas
  | _ => cases hboth

/-! ### The devices -/

/-- Numbering gives a device a bus and leaves the rest of it. -/
theorem forall₂_number {busOffset : UInt8} {can : Bool} {index n m : Nat} {ds es : List Device}
    (h : number busOffset can index n ds = .ok (m, es)) :
    List.Forall₂ (fun d e => ∃ bus, e = { d with bus }) ds es := by
  induction ds generalizing index n es with
  | nil =>
    obtain ⟨rfl, rfl⟩ := Prod.mk.inj (Except.ok.inj h)
    exact .nil
  | cons d ds ih =>
    rcases number_cons h with ⟨-, bus, rest, -, hrest, rfl⟩ | ⟨-, rest, hrest, rfl⟩
    · exact .cons ⟨bus, rfl⟩ (ih hrest)
    · exact .cons ⟨d.bus, rfl⟩ (ih hrest)

/-- The device a UI's table is. -/
theorem is_of_table {lib : SettingsLib} {s : Settings} {u : UiDevice} {t : DeviceSection}
    {d : Device} (ht : u.table lib = .ok t)
    (hd : Device.fromTable lib t s.canFd s.defaultDatabase = .ok d) : u.Is s d := by
  simp only [UiDevice.table] at ht
  split_ifs at ht
  obtain rfl := Except.ok.inj ht
  obtain ⟨interface, hinterface, hd⟩ := bind_ok hd
  unfold Device.need at hinterface
  dsimp only at hinterface
  split_ifs at hinterface
  obtain rfl := Except.ok.inj hinterface
  obtain rfl := Except.ok.inj hd
  exact ⟨rfl, rfl, rfl, rfl⟩

theorem forall₂_uiTables {lib : SettingsLib} {s : Settings} {i j : Nat} {us : List UiDevice}
    {tables : List DeviceSection} {ds : List Device} (hus : uiTables lib i us = .ok tables)
    (h : tableDevices lib s.canFd s.defaultDatabase j tables = .ok ds) :
    List.Forall₂ (UiDevice.Is s) us ds := by
  induction us generalizing i j tables ds with
  | nil =>
    obtain rfl := Except.ok.inj hus
    obtain rfl := Except.ok.inj h
    exact .nil
  | cons u us ih =>
    obtain ⟨t, ht, hus⟩ := bind_ok hus
    obtain ⟨rest, hrest, hus⟩ := bind_ok hus
    obtain rfl := Except.ok.inj hus
    obtain ⟨d, hd, h⟩ := bind_ok h
    split at h
    · cases h
    · obtain ⟨more, hmore, h⟩ := bind_ok h
      obtain rfl := Except.ok.inj h
      exact .cons (is_of_table (ok_of_mapError ht) (ok_of_mapError hd)) (ih hrest hmore)

/-- The devices built from a UI's list are the ones on it. -/
theorem has_devices {lib : SettingsLib} {s : Settings} {us : List UiDevice}
    {tables : List DeviceSection} {ds : List Device} (hus : uiTables lib 0 us = .ok tables)
    (h : buildDevices lib s [] tables = .ok ds) : List.Forall₂ (UiDevice.Is s) us ds := by
  obtain ⟨ts, hts, h⟩ := bind_ok h
  obtain ⟨-, -, h⟩ := bind_ok h
  obtain ⟨⟨n, es⟩, hes, h⟩ := bind_ok h
  obtain ⟨⟨m, fs⟩, hfs, h⟩ := bind_ok h
  obtain rfl := Except.ok.inj h
  have hkeep {us : List UiDevice} {ds es : List Device} (hds : List.Forall₂ (UiDevice.Is s) us ds)
      (hes : List.Forall₂ (fun d e => ∃ bus, e = ({ d with bus } : Device)) ds es) :
      List.Forall₂ (UiDevice.Is s) us es := by
    induction hds generalizing es with
    | nil =>
      cases hes
      exact .nil
    | cons hd _ ih =>
      obtain _ | ⟨⟨bus, rfl⟩, hrest⟩ := hes
      exact .cons ⟨hd.interface, hd.mode, hd.database, hd.kind⟩ (ih hrest)
  exact hkeep (hkeep (forall₂_uiTables hus hts) (forall₂_number hes)) (forall₂_number hfs)

/-- Which layer names the devices. -/
theorem deviceSet_cases {lib : SettingsLib} {cli : Cli} {file : Option FileConfig} {ui : UiConfig}
    {set : String × List DeviceSection}
    (h : deviceSet lib (ui.beneath cli) file (some ui) = .ok set) :
    (∃ f, file = some f ∧ UiKey.inFile f .devices = true ∧
      set = ((f.server.iface.or cli.iface).getD "", f.device)) ∨
    (file.any (UiKey.inFile · .devices) = false ∧ ∃ sugar, cli.iface = some sugar ∧
      set = (sugar, (file.map (·.device)).getD [])) ∨
    (file.any (UiKey.inFile · .devices) = false ∧ cli.iface = none ∧
      ((∃ us tables, ui.devices = some us ∧ uiTables lib 0 us = .ok tables ∧ set = ("", tables)) ∨
        (ui.devices = none ∧ set = ("can0", [])))) := by
  have hiface : (ui.beneath cli).iface = cli.iface := rfl
  unfold deviceSet at h
  rw [hiface] at h
  -- Without devices in the file, the flag's, else the UI's, else the default.
  have hrest (htables : (file.map (·.device)).getD [] = []) (hfile : file.bind (·.server.iface) = none)
      (hany : file.any (UiKey.inFile · .devices) = false) :
      (∃ sugar, cli.iface = some sugar ∧ set = (sugar, (file.map (·.device)).getD [])) ∨
      (cli.iface = none ∧
        ((∃ us tables, ui.devices = some us ∧ uiTables lib 0 us = .ok tables ∧
            set = ("", tables)) ∨
          (ui.devices = none ∧ set = ("can0", [])))) := by
    dsimp only at h
    rw [hfile, Option.none_or] at h
    cases hcli : cli.iface with
    | some sugar =>
      rw [hcli] at h
      exact .inl ⟨sugar, rfl, (Except.ok.inj h).symm⟩
    | none =>
      rw [hcli, htables, Option.bind_some] at h
      right
      refine ⟨rfl, ?_⟩
      cases hui : ui.devices with
      | none =>
        rw [hui] at h
        exact .inr ⟨rfl, (Except.ok.inj h).symm⟩
      | some us =>
        left
        rw [hui] at h
        cases htables' : uiTables lib 0 us with
        | error e =>
          simp only [List.isEmpty_nil, Bool.not_true, Bool.false_eq_true, if_false, htables'] at h
          cases h
        | ok tables =>
          simp only [List.isEmpty_nil, Bool.not_true, Bool.false_eq_true, if_false, htables'] at h
          exact ⟨us, tables, rfl, htables', (Except.ok.inj h).symm⟩
  cases file with
  | none =>
    rcases hrest rfl rfl rfl with hflag | hui
    · exact .inr (.inl ⟨rfl, hflag⟩)
    · exact .inr (.inr ⟨rfl, hui⟩)
  | some f =>
    cases hin : UiKey.inFile f .devices with
    | false =>
      obtain ⟨hsugar, hdevice⟩ := Bool.or_eq_false_iff.mp hin
      have htables : f.device = [] := by simpa using hdevice
      rcases hrest htables (by simpa using hsugar) hin with hflag | hui
      · exact .inr (.inl ⟨hin, hflag⟩)
      · exact .inr (.inr ⟨hin, hui⟩)
    | true =>
      refine .inl ⟨f, rfl, hin, ?_⟩
      dsimp only [Option.bind_some, Option.map_some, Option.getD_some] at h
      cases hsugar : f.server.iface.or cli.iface with
      | some sugar =>
        rw [hsugar] at h
        exact (Except.ok.inj h).symm
      | none =>
        rw [hsugar] at h
        have hnone : f.server.iface = none := (Option.or_eq_none_iff.mp hsugar).1
        unfold UiKey.inFile at hin
        rw [hnone, Option.isSome_none, Bool.false_or] at hin
        dsimp only at h
        rw [if_pos hin] at h
        exact (Except.ok.inj h).symm

theorem parseIfaces_empty : parseIfaces "" = [] := by decide

theorem parseIfaces_can0 : parseIfaces "can0" = ["can0"] := by decide

theorem highestUsed_devices {lib : SettingsLib} {cli : Cli} {file : Option FileConfig}
    {ui : UiConfig} {env : Env} {s : Settings} (hcli : cli.Parsed)
    (h : OfLayers lib (ui.beneath cli) file (some ui) env s) :
    HighestUsed lib cli file ui s .devices (sourceOf cli file ui env .devices) := by
  obtain ⟨set, hset, hbuilt⟩ := h.devices
  have hsource : sourceOf cli file ui env .devices =
      .highest (file.any (UiKey.inFile · .devices))
        (if cli.iface.isSome then some "iface" else none) ui.devices.isSome := by
    rw [hcli.iface]
    rfl
  rw [hsource]
  simp only [HighestUsed, Uses]
  have hnofile (hany : file.any (UiKey.inFile · .devices) = false) :
      ¬ UsesDevices lib cli file ui s .file := by
    rintro ⟨f, rfl, hin, -⟩
    have hin' : UiKey.inFile f .devices = true := by
      unfold UiKey.inFile
      rcases hin with hin | hin <;> simp [hin]
    cases hin'.symm.trans hany
  have hnoflag (hnone : cli.iface = none) (field : String) :
      ¬ UsesDevices lib cli file ui s (.flag field) := by
    rintro ⟨-, sugar, hsugar, -⟩
    cases hnone.symm.trans hsugar
  -- The file's tables, the flag's interfaces, what the UI stored, and `can0`.
  rcases deviceSet_cases hset with ⟨f, rfl, hin, rfl⟩ | ⟨hany, sugar, hsugar, rfl⟩ |
    ⟨hany, hnone, ⟨us, tables, hus, htables, rfl⟩ | ⟨hui, rfl⟩⟩
  · have hany : (some f).any (UiKey.inFile · .devices) = true := hin
    rw [hany]
    refine ⟨⟨f, rfl, ?_, hbuilt⟩, fun other hrank => ?_⟩
    · unfold UiKey.inFile at hin
      simpa using hin
    · cases other <;> exact absurd hrank (by simp [Source.rank, Source.highest])
  · rw [hany, hsugar]
    refine ⟨⟨rfl, sugar, hsugar, hbuilt⟩, fun other hrank => ?_⟩
    cases other with
    | file => exact hnofile hany
    | _ => exact absurd hrank (by simp [Source.rank, Source.highest])
  · rw [parseIfaces_empty] at hbuilt
    rw [hany, hnone, hus]
    refine ⟨⟨us, hus, has_devices htables hbuilt⟩, fun other hrank => ?_⟩
    cases other with
    | file => exact hnofile hany
    | flag field => exact hnoflag hnone field
    | env _ => exact id
    | _ => exact absurd hrank (by simp [Source.rank, Source.highest])
  · rw [parseIfaces_can0] at hbuilt
    rw [hany, hnone, hui]
    refine ⟨hbuilt, fun other hrank => ?_⟩
    cases other with
    | file => exact hnofile hany
    | flag field => exact hnoflag hnone field
    | env _ => exact id
    | ui =>
      rintro ⟨us, hus, -⟩
      cases hui.symm.trans hus
    | default => exact absurd hrank (by simp [Source.rank, Source.highest])

/-! ### What a UI cannot change -/

/-- Nothing that is pinned comes to something else for what the UI writes for it. -/
theorem effective_set {cli : Cli} {file : Option FileConfig} {ui : UiConfig} {k : UiKey}
    {v : Option k.Value}
    (hpinned : cli.isGiven k.flag = true ∨ (file.bind (UiKey.fileValue · k)).isSome = true)
    {j : UiKey} (hj : j.Scalar) :
    (file.bind (UiKey.fileValue · j)).or (UiKey.flagValue ((UiKey.set ui k v).beneath cli) j) =
      (file.bind (UiKey.fileValue · j)).or (UiKey.flagValue (ui.beneath cli) j) := by
  rw [UiKey.flagValue_beneath hj, UiKey.flagValue_beneath hj]
  by_cases hjk : j = k
  · subst hjk
    rcases hpinned with hgiven | hfile
    · rw [if_pos hgiven, if_pos hgiven]
    · obtain ⟨w, hw⟩ := Option.isSome_iff_exists.mp hfile
      rw [hw, Option.some_or, Option.some_or]
  · rw [UiKey.get_set_of_ne ui v hjk]

/-- The switches of two layerings that come to the same. -/
theorem switch_congr {inFile : Option Bool} {flag flag' given : Bool}
    (h : inFile.or (some flag) = inFile.or (some flag')) (hgiven : given = true → flag = flag') :
    switch inFile flag given = switch inFile flag' given := by
  rcases inFile with _ | _ | _
  · exact Option.some.inj h
  · cases given with
    | false => exact (Bool.and_false flag).trans (Bool.and_false flag').symm
    | true => exact congrArg (· && true) (hgiven rfl)
  · rfl

/-- A flag that was given stands, whatever the UI writes. -/
theorem flagValue_of_given {cli : Cli} {ui ui' : UiConfig} {k : UiKey} (hk : k.Scalar)
    (hgiven : cli.isGiven k.flag = true) :
    UiKey.flagValue (ui.beneath cli) k = UiKey.flagValue (ui'.beneath cli) k := by
  rw [UiKey.flagValue_beneath hk, UiKey.flagValue_beneath hk, if_pos hgiven, if_pos hgiven]

/-- Where every scalar comes to the same, so do the settings, the devices and the secrets apart. -/
theorem written_congr {lib : SettingsLib} {cli : Cli} {file : Option FileConfig}
    {ui ui' : UiConfig} {env : Env}
    (h : ∀ j : UiKey, j.Scalar →
      (file.bind (UiKey.fileValue · j)).or (UiKey.flagValue (ui.beneath cli) j) =
        (file.bind (UiKey.fileValue · j)).or (UiKey.flagValue (ui'.beneath cli) j)) :
    forwardOn (ui.beneath cli) file = forwardOn (ui'.beneath cli) file ∧
      writtenForward lib (ui.beneath cli) file env = writtenForward lib (ui'.beneath cli) file env ∧
      ingestOn (ui.beneath cli) file = ingestOn (ui'.beneath cli) file ∧
      writtenIngest (ui.beneath cli) file = writtenIngest (ui'.beneath cli) file ∧
      logLevelOf (ui.beneath cli) file = logLevelOf (ui'.beneath cli) file := by
  have hgetD {α : Type} {x : Option α} {a b : α} (hx : x.or (some a) = x.or (some b)) :
      x.getD a = x.getD b := by
    cases x with
    | none => exact Option.some.inj hx
    | some c => rfl
  refine ⟨?_, ?_, ?_, ?_, ?_⟩
  · refine switch_congr (h .forwardEnable ⟨nofun, nofun, nofun⟩) fun hgiven => ?_
    exact Option.some.inj (@flagValue_of_given cli ui ui' .forwardEnable ⟨nofun, nofun, nofun⟩ hgiven)
  · have hhost := hgetD (h .forwardHost ⟨nofun, nofun, nofun⟩)
    have hport := hgetD (h .forwardPort ⟨nofun, nofun, nofun⟩)
    have hdatabase := hgetD (h .forwardDatabase ⟨nofun, nofun, nofun⟩)
    have hsize := hgetD (h .batchSize ⟨nofun, nofun, nofun⟩)
    have hflush := hgetD (h .flushInterval ⟨nofun, nofun, nofun⟩)
    have hqueue := hgetD (h .queueSize ⟨nofun, nofun, nofun⟩)
    have hmax := hgetD (h .cacheMaxMb ⟨nofun, nofun, nofun⟩)
    have hpct := hgetD (h .queueFlushPct ⟨nofun, nofun, nofun⟩)
    show Forward.mk _ _ _ _ (Batching.mk _ _ _ _ _ _ _) _ =
      Forward.mk _ _ _ _ (Batching.mk _ _ _ _ _ _ _) _
    congr 1
    congr 1
  · refine switch_congr (h .ingestEnable ⟨nofun, nofun, nofun⟩) fun hgiven => ?_
    exact Option.some.inj (@flagValue_of_given cli ui ui' .ingestEnable ⟨nofun, nofun, nofun⟩ hgiven)
  · have hport := hgetD (h .ingestPort ⟨nofun, nofun, nofun⟩)
    show Ingest.mk _ _ _ _ _ = Ingest.mk _ _ _ _ _
    congr 1
  · exact congrArg parseLogLevel (hgetD (h .logLevel ⟨nofun, nofun, nofun⟩))

/-- A scalar that is pinned was given as a flag or is in the file. -/
theorem pinned_scalar {cli : Cli} {file : Option FileConfig} {ui : UiConfig} {env : Env} {k : UiKey}
    (hk : k.Scalar) (hpinned : (sourceOf cli file ui env k).pinned = true) :
    cli.isGiven k.flag = true ∨ (file.bind (UiKey.fileValue · k)).isSome = true := by
  rw [sourceOf_scalar hk] at hpinned
  by_cases hgiven : cli.isGiven k.flag = true
  · exact .inl hgiven
  · right
    have hfree : ¬ Contested cli file k = true := by
      intro hboth
      cases k with
      | forwardEnable => exact hgiven (Bool.and_eq_true_iff.mp hboth).2
      | ingestEnable => exact hgiven (Bool.and_eq_true_iff.mp hboth).2
      | _ => cases hboth
    rw [if_neg hfree, if_neg hgiven] at hpinned
    cases file with
    | none => cases hui : (UiKey.get ui k).isSome <;> rw [hui] at hpinned <;> cases hpinned
    | some f =>
      rw [Option.bind_some, ← UiKey.inFile_eq hk]
      cases hin : UiKey.inFile f k with
      | true => rfl
      | false =>
        rw [Option.any_some, hin] at hpinned
        cases hui : (UiKey.get ui k).isSome <;> rw [hui] at hpinned <;> cases hpinned

/-- Devices that are pinned are not the UI's. -/
theorem deviceSet_of_pinned {lib : SettingsLib} {cli : Cli} {file : Option FileConfig}
    {ui ui' : UiConfig} {env : Env} (hcli : cli.Parsed)
    (hpinned : (sourceOf cli file ui env .devices).pinned = true) :
    deviceSet lib (ui.beneath cli) file (some ui) =
      deviceSet lib (ui'.beneath cli) file (some ui') := by
  have hiface (ui : UiConfig) : (ui.beneath cli).iface = cli.iface := rfl
  unfold deviceSet
  rw [hiface, hiface]
  dsimp only
  cases hsugar : (file.bind (·.server.iface)).or cli.iface with
  | some sugar => rfl
  | none =>
    obtain ⟨hfile, hflag⟩ := Option.or_eq_none_iff.mp hsugar
    have hgiven : cli.isGiven "iface" = false := by
      rw [← hcli.iface, hflag]
      rfl
    have htables : (!((file.map (·.device)).getD []).isEmpty) = true := by
      cases htables : (!((file.map (·.device)).getD []).isEmpty) with
      | true => rfl
      | false =>
        have hany : file.any (UiKey.inFile · .devices) = false := by
          cases file with
          | none => rfl
          | some f =>
            rw [Option.bind_some] at hfile
            show (f.server.iface.isSome || !f.device.isEmpty) = false
            rw [hfile]
            exact htables
        have hsource : sourceOf cli file ui env .devices =
            .highest (file.any (UiKey.inFile · .devices))
              (if cli.isGiven "iface" then some "iface" else none) ui.devices.isSome := rfl
        rw [hsource, hany, hgiven] at hpinned
        cases hui : ui.devices.isSome <;> rw [hui] at hpinned <;> cases hpinned
    dsimp only
    rw [if_pos htables, if_pos htables]

/-- Where a key is pinned, what a UI writes for it is not used. -/
theorem eq_of_pinned {lib : SettingsLib} {cli : Cli} {file : Option FileConfig} {ui : UiConfig}
    {env : Env} {s s' : Settings} (hcli : cli.Parsed) {k : UiKey} (hapi : k ≠ .apiKey)
    (htoken : k ≠ .token) (hpinned : (sourceOf cli file ui env k).pinned = true)
    {v : Option k.Value} (h : OfLayers lib (ui.beneath cli) file (some ui) env s)
    (h' : OfLayers lib ((UiKey.set ui k v).beneath cli) file (some (UiKey.set ui k v)) env s') :
    s' = s := by
  by_cases hdevices : k = .devices
  · subst hdevices
    exact eq_of_ofLayers h' h rfl rfl rfl (deviceSet_of_pinned hcli hpinned).symm
  · have hk : k.Scalar := ⟨hdevices, hapi, htoken⟩
    obtain ⟨hfon, hforward, hion, hingest, hlevel⟩ := @written_congr lib cli file (UiKey.set ui k v)
      ui env fun j hj => effective_set (pinned_scalar hk hpinned) hj
    have hsecrets : (UiKey.set ui k v).forward.apiKey = ui.forward.apiKey ∧
        (UiKey.set ui k v).ingest.token = ui.ingest.token ∧
        (UiKey.set ui k v).devices = ui.devices :=
      ⟨UiKey.get_set_of_ne ui v hapi.symm, UiKey.get_set_of_ne ui v htoken.symm,
        UiKey.get_set_of_ne ui v (Ne.symm hdevices)⟩
    refine eq_of_ofLayers h' h ?_ ?_ hlevel ?_
    · unfold forwardOf
      rw [hfon, hforward, Option.bind_some, Option.bind_some, hsecrets.1]
    · unfold ingestOf
      rw [hion, hingest, Option.bind_some, Option.bind_some, hsecrets.2.1]
    · unfold deviceSet
      rw [Option.bind_some, Option.bind_some, hsecrets.2.2]
      rfl

/-! ### What is shown -/

/-- What is shown for a value the settings have. -/
theorem shown_of_has {J : Type} {json : JsonLib J} {show' : List ListedDevice → J} {s : Settings}
    {k : UiKey} (hk : k.Plain) (hlevel : k ≠ .logLevel) {v : k.Value} (h : s.Has k v) :
    s.shown json show' k = some ((k.codec json).toValue v) := by
  have hmap {α β : Type} {x : Option α} {g : α → β} {b : β} (hx : x.map g = some b) (c : β → J) :
      x.map (fun a => c (g a)) = some (c b) := by
    rw [← Function.comp_def, ← Option.map_map, hx, Option.map_some]
  obtain ⟨⟨hdevices, hapi, htoken⟩, hfenable, hienable⟩ := hk
  cases k <;> first | contradiction | exact hmap h _

theorem listedValue_eq_shown {J : Type} {json : JsonLib J} {show' : List ListedDevice → J}
    {lib : SettingsLib} {cli : Cli} {file : Option FileConfig} {ui : Option UiConfig} {env : Env}
    {s : Settings} (h : OfLayers lib cli file ui env s) {k : UiKey} (hapi : k ≠ .apiKey)
    (htoken : k ≠ .token) (hon : k.On s) :
    s.shown json show' k = some (listedValue json show' cli file s k) := by
  by_cases hdecided : k = .devices ∨ k = .forwardEnable ∨ k = .ingestEnable ∨ k = .logLevel
  · rcases hdecided with rfl | rfl | rfl | rfl <;> rfl
  · push Not at hdecided
    obtain ⟨hdevices, hforward, hingest, hlevel⟩ := hdecided
    have hk : k.Scalar := ⟨hdevices, hapi, htoken⟩
    have hvalue : listedValue json show' cli file s k = k.encode json
        ((file.bind (UiKey.fileValue · k)).or (UiKey.flagValue cli k)) := by
      cases k <;> first | contradiction | rfl
    obtain ⟨w, hw⟩ := flagValue_isSome hk cli
    obtain ⟨v, hv⟩ : ∃ v, (file.bind (UiKey.fileValue · k)).or (UiKey.flagValue cli k) = some v := by
      rw [hw]
      cases file.bind (UiKey.fileValue · k) <;> exact ⟨_, rfl⟩
    have hhas : s.Has k v := has_of_layers h ⟨hk, hforward, hingest⟩ hon hv
    rw [hvalue, hv, shown_of_has ⟨hk, hforward, hingest⟩ hlevel hhas]
    rfl

/-! ### Together -/

theorem uses_scalar {lib : SettingsLib} {cli : Cli} {file : Option FileConfig} {ui : UiConfig}
    {s : Settings} {k : UiKey} (hk : k ≠ .devices) :
    Uses lib cli file ui s k = UsesScalar cli file ui s k := by
  cases k <;> first | rfl | contradiction

theorem highestUsed_scalar {lib : SettingsLib} {cli : Cli} {file : Option FileConfig}
    {ui : UiConfig} {env : Env} {s : Settings} (hcli : cli.Parsed)
    (h : OfLayers lib (ui.beneath cli) file (some ui) env s) {k : UiKey} (hk : k.Scalar)
    (hon : k.On s) : HighestUsed lib cli file ui s k (sourceOf cli file ui env k) := by
  unfold HighestUsed
  rw [uses_scalar hk.1, sourceOf_scalar hk]
  by_cases hboth : Contested cli file k = true
  · rw [if_pos hboth]
    exact highestUsed_of_contested hcli h hboth
  · rw [if_neg hboth]
    have hfree : Contested cli file k = false := (Bool.not_eq_true _).mp hboth
    exact highestUsed_of_has hcli hk fun v => has_of_not_contested h hk hon hfree

/-- A key a UI may change is the UI's where it wrote it. -/
theorem sourceOf_of_free {cli : Cli} {file : Option FileConfig} {ui : UiConfig} {env : Env}
    {k : UiKey} (hapi : k ≠ .apiKey) (htoken : k ≠ .token)
    (hfree : (sourceOf cli file ui env k).pinned = false) {v : k.Value}
    (hv : UiKey.get ui k = some v) : sourceOf cli file ui env k = .ui := by
  have hhighest {inFile : Bool} {flag : Option String}
      (h : (Source.highest inFile flag true).pinned = false) :
      Source.highest inFile flag true = .ui := by
    cases inFile <;> cases flag <;> first | rfl | cases h
  by_cases hdevices : k = .devices
  · subst hdevices
    have hsource : sourceOf cli file ui env .devices =
        .highest (file.any (UiKey.inFile · .devices))
          (if cli.isGiven "iface" then some "iface" else none) (UiKey.get ui .devices).isSome := rfl
    rw [hsource, hv] at hfree ⊢
    exact hhighest hfree
  · rw [sourceOf_scalar ⟨hdevices, hapi, htoken⟩] at hfree ⊢
    split_ifs at hfree ⊢
    · cases hfree
    all_goals
      rw [hv] at hfree ⊢
      exact hhighest hfree

end Settings

open Settings in
theorem listing_in_force {J : Type} (json : JsonLib J) (show' : List ListedDevice → J)
    {lib : SettingsLib} {cli : Cli} {file : Option FileConfig} {ui : UiConfig} {env : Env}
    {r : Resolved} (hcli : cli.Parsed) (h : resolve lib cli file (some ui) env = .ok r) {k : UiKey}
    (hapi : k ≠ .apiKey) (htoken : k ≠ .token) :
    (k.On r.settings →
      HighestUsed lib cli file ui r.settings k (sourceOf cli file ui env k)) ∧
    ((sourceOf cli file ui env k).pinned = true → ∀ v r',
      resolve lib cli file (some (UiKey.set ui k v)) env = .ok r' → r'.settings = r.settings) ∧
    ((sourceOf cli file ui env k).pinned = false → k.On r.settings → ∀ v,
      UiKey.get ui k = some v → r.settings.Has k v) ∧
    (k.On r.settings → ∃ setting ∈ listing json show' cli file ui env r.settings,
      setting.key = k ∧ setting.source = sourceOf cli file ui env k ∧
        r.settings.shown json show' k = some setting.value) := by
  have hlayers := ofLayers_of_resolve h
  have hhighest (hon : k.On r.settings) :
      HighestUsed lib cli file ui r.settings k (sourceOf cli file ui env k) := by
    by_cases hdevices : k = .devices
    · subst hdevices
      exact highestUsed_devices hcli hlayers
    · exact highestUsed_scalar hcli hlayers ⟨hdevices, hapi, htoken⟩ hon
  refine ⟨hhighest, ?_, ?_, ?_⟩
  · intro hpinned v r' h'
    exact eq_of_pinned hcli hapi htoken hpinned hlayers (ofLayers_of_resolve h')
  · -- A key that is not pinned and that the UI wrote is the UI's.
    intro hfree hon v hv
    have hused := (hhighest hon).1
    rw [sourceOf_of_free hapi htoken hfree hv] at hused
    by_cases hdevices : k = .devices
    · subst hdevices
      obtain ⟨v', hv', hhas⟩ := hused
      obtain rfl := Option.some.inj (hv'.symm.trans hv)
      exact hhas
    · rw [uses_scalar hdevices] at hused
      obtain ⟨v', hv', hhas⟩ := hused
      obtain rfl := Option.some.inj (hv'.symm.trans hv)
      exact hhas
  · intro hon
    refine ⟨_, List.mem_map_of_mem (UiKey.mem_listed k), rfl, rfl, ?_⟩
    have hplain : k.secret = false := by
      cases k <;> first | rfl | contradiction
    rw [listedValue_eq_shown hlayers hapi htoken hon]
    dsimp only
    rw [hplain]
    rfl

theorem benchCli_parsed : benchCli.Parsed where
  iface := rfl
  forwardEnable := rfl
  ingestEnable := rfl
  default := by
    intro k hk
    cases k <;> first | rfl | cases hk

theorem listing_in_force_bench :
    ∃ r, Settings.resolve .bare benchCli none (some fleetUi) benchEnv = .ok r ∧
      sourceOf benchCli none fleetUi benchEnv .forwardDatabase = .ui ∧
      HighestUsed .bare benchCli none fleetUi r.settings .forwardDatabase .ui ∧
      r.settings.Has .forwardDatabase "fleet" := by
  obtain ⟨r, hr⟩ : ∃ r, Settings.resolve .bare benchCli none (some fleetUi) benchEnv = .ok r :=
    ⟨_, rfl⟩
  have hon : UiKey.On r.settings .forwardDatabase := by
    obtain rfl := Except.ok.inj hr
    rfl
  have h := listing_in_force benchJson shownDevices benchCli_parsed hr (k := .forwardDatabase) nofun
    nofun
  exact ⟨r, hr, rfl, h.1 hon, h.2.2.1 rfl hon "fleet" rfl⟩

end WireTap.Daemon
