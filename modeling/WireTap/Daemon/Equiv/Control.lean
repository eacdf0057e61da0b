import Mathlib.Data.List.Nodup
import Mathlib.Tactic.SplitIfs
import WireTap.Daemon.Equiv.Start
import WireTap.Daemon.Form
import WireTap.Lib.Run

/-!
# What an accepted change comes to

`apply_next_start`: a refused change leaves `ui.toml` alone; an accepted one changes in it what it
names and nothing else, and the next start runs on the result; and no process accepts two.  But a
`ui.toml` that cannot be read is replaced by one that holds what the change names alone.  And `apply`
resolves as a start would and builds nothing, so the start's pipelines are built exactly if the sizes
and intervals in force are ones that can be (`Buildable`).

A document is read back key by key (`get_of_fromValue`), so a change is a function update
(`changed_of_merge`).  That one request at a time is let through is an invariant of the process
(`Process.Inv`).
-/

namespace WireTap.Daemon

/-! ### Keys -/

namespace UiKey

@[simp] theorem get_set_self (ui : UiConfig) (k : UiKey) (v : Option k.Value) :
    get (set ui k v) k = v := by
  cases k <;> rfl

theorem get_set_of_ne (ui : UiConfig) {k k' : UiKey} (v : Option k'.Value) (h : k ≠ k') :
    get (set ui k' v) k = get ui k := by
  cases k' <;> cases k <;> first | rfl | exact absurd rfl h

theorem mem_sorted (k : UiKey) : k ∈ sorted := by
  cases k <;> decide

theorem nodup_sorted : sorted.Nodup := by decide

theorem mem_all (k : UiKey) : k ∈ all := by
  cases k <;> decide

theorem name_injective : Function.Injective name := by
  intro k k' h
  have hall : ∀ k ∈ all, ∀ k' ∈ all, k.name = k'.name → k = k' := by decide
  exact hall k (mem_all k) k' (mem_all k') h

end UiKey

/-! ### Documents -/

section Json

variable {J : Type} {json : JsonLib J}

/-- What is read is in the keys that were read, and the rest is as it was. -/
theorem get_of_readKeys {doc : Doc J} {ks : List UiKey} {ui₀ ui : UiConfig} (hks : ks.Nodup)
    (h : readKeys json doc ks ui₀ = .ok ui) (k : UiKey) :
    (k ∈ ks → k.decode json (doc k) = .ok (UiKey.get ui k)) ∧
      (k ∉ ks → UiKey.get ui k = UiKey.get ui₀ k) := by
  induction ks generalizing ui₀ with
  | nil =>
    obtain rfl := Except.ok.inj h
    exact ⟨fun hk => absurd hk List.not_mem_nil, fun _ => rfl⟩
  | cons k' ks ih =>
    obtain ⟨hk', hks⟩ := List.nodup_cons.mp hks
    obtain ⟨v, hv, h⟩ := bind_ok h
    obtain ⟨hin, hout⟩ := ih hks h
    by_cases hkk' : k = k'
    · subst hkk'
      rw [hout hk', UiKey.get_set_self]
      exact ⟨fun _ => hv, fun hk => absurd List.mem_cons_self hk⟩
    · constructor
      · intro hk
        exact hin ((List.mem_cons.mp hk).resolve_left hkk')
      · intro hk
        rw [hout fun hmem => hk (List.mem_cons_of_mem _ hmem), UiKey.get_set_of_ne _ _ hkk']

/-- A document is read key by key. -/
theorem get_of_fromValue {doc : Doc J} {ui : UiConfig} (h : fromValue json doc = .ok ui)
    (k : UiKey) : k.decode json (doc k) = .ok (UiKey.get ui k) :=
  (get_of_readKeys UiKey.nodup_sorted h k).1 (UiKey.mem_sorted k)

/-- The value the change has for a key is what the document has then. -/
theorem foldl_update {put : List (UiKey × J)} (hput : (put.map (·.1)).Nodup) (doc : Doc J)
    (k : UiKey) :
    put.foldl (fun doc kv => Function.update doc kv.1 kv.2) doc k = (put.lookup k).getD (doc k) := by
  induction put generalizing doc with
  | nil => rfl
  | cons kv put ih =>
    obtain ⟨hkv, hput⟩ := List.nodup_cons.mp hput
    rw [List.foldl_cons, ih hput, List.lookup_cons]
    by_cases hk : k = kv.1
    · have hnone : put.lookup k = none := by
        rw [List.lookup_eq_none_iff]
        intro kv' hkv'
        rw [bne_iff_ne, hk]
        intro hsame
        exact hkv (List.mem_map.mpr ⟨kv', hkv', hsame.symm⟩)
      rw [hnone, beq_iff_eq.mpr hk, hk, Function.update_self]
      rfl
    · have hne : (k == kv.1) = false := by simpa using hk
      rw [hne, Function.update_of_ne hk]

/-! ### A change -/

/-- `after` is `before` with the body's keys at the body's values. -/
def Changed (json : JsonLib J) (raw : List (String × J)) (before after : UiConfig) : Prop :=
  ∀ k : UiKey, match raw.lookup k.name with
    | some v => k.decode json v = .ok (UiKey.get after k)
    | none => UiKey.get after k = UiKey.get before k

/-- What `toml` and `serde_json` are relied on for: what they write they read back, a comment before
it or not, and an object's keys differ. -/
structure RoundTrips (toml : TomlLib) (json : JsonLib J) (before : UiConfig) : Prop where
  ofToml : ∀ ui text, toml.toStr ui = .ok text → toml.fromStr (header ++ text) = .ok ui
  ofValue : ∀ k : UiKey, k.decode json (k.encode json (UiKey.get before k)) = .ok (UiKey.get before k)
  ofSlice : ∀ body raw, json.fromSlice body = .ok raw → (raw.map (·.1)).Nodup

theorem map_of_named {raw : List (String × J)} {put : List (UiKey × J)} (h : named raw = .ok put) :
    raw = put.map fun kv => (kv.1.name, kv.2) := by
  induction raw generalizing put with
  | nil =>
    obtain rfl := Except.ok.inj h
    rfl
  | cons kv raw ih =>
    obtain ⟨key, value⟩ := kv
    unfold named at h
    split at h
    · cases h
    · rename_i k hk
      cases hrest : named raw with
      | error e =>
        rw [hrest] at h
        cases h
      | ok rest =>
        rw [hrest] at h
        obtain rfl := Except.ok.inj h
        have hname : k.name = key := by simpa using List.find?_some hk
        rw [List.map_cons, ih hrest, hname]

/-- A key is looked up by its name. -/
theorem lookup_name (put : List (UiKey × J)) (k : UiKey) :
    (put.map fun kv => (kv.1.name, kv.2)).lookup k.name = put.lookup k := by
  induction put with
  | nil => rfl
  | cons kv put ih =>
    rw [List.map_cons, List.lookup_cons, List.lookup_cons, ih]
    have hsame : (k.name == kv.1.name) = (k == kv.1) := by
      rw [Bool.eq_iff_iff, beq_iff_eq, beq_iff_eq]
      exact UiKey.name_injective.eq_iff
    rw [hsame]

/-- A merge changes the body's keys and no other. -/
theorem changed_of_merge {toml : TomlLib} {before after : UiConfig} {body : List UInt8}
    {raw : List (String × J)} {put : List (UiKey × J)} (hlib : RoundTrips toml json before)
    (hraw : json.fromSlice body = .ok raw) (hput : named raw = .ok put)
    (h : merge json before put = .ok after) : Changed json raw before after := by
  have hmap := map_of_named hput
  have hnodup : (put.map (·.1)).Nodup := by
    have hnames := hlib.ofSlice body raw hraw
    rw [hmap, List.map_map] at hnames
    have hcomp : put.map ((·.1) ∘ fun kv : UiKey × J => (kv.1.name, kv.2)) =
        (put.map (·.1)).map UiKey.name := by
      rw [List.map_map]
      rfl
    rw [hcomp] at hnames
    exact hnames.of_map
  intro k
  have hget := get_of_fromValue h k
  rw [foldl_update hnodup] at hget
  rw [hmap, lookup_name]
  cases hk : put.lookup k with
  | some v =>
    rw [hk] at hget
    exact hget
  | none =>
    rw [hk] at hget
    exact Except.ok.inj (hget.symm.trans (hlib.ofValue k))

/-- What a change that `apply` goes on to write has passed. -/
structure Passed (lib : SettingsLib) (toml : TomlLib) (json : JsonLib J) (c : Control) (host : Host)
    (body : List UInt8) (path : String) (next : UiConfig) : Prop where
  intro ::
  uiPath : c.uiPath = some path
  merged : ∃ raw put, json.fromSlice body = .ok raw ∧ named raw = .ok put ∧
    merge json (stored toml path host.ui) put = .ok next
  resolved : ∃ file r, host.configFile c.cli = .ok file ∧
    Settings.resolve lib c.cli file (some next) c.env = .ok r ∧ check lib r.settings = .ok ()

theorem passed_of_validate {lib : SettingsLib} {toml : TomlLib} {c : Control} {host : Host}
    {body : List UInt8} {path : String} {next : UiConfig}
    (h : validate lib toml json c host body = .ok (path, next)) :
    Passed lib toml json c host body path next := by
  obtain ⟨path', hpath, h⟩ := bind_ok h
  obtain ⟨raw, hraw, h⟩ := bind_ok h
  obtain ⟨-, -, h⟩ := bind_ok h
  obtain ⟨put, hput, h⟩ := bind_ok h
  obtain ⟨file, hfile, h⟩ := bind_ok h
  obtain ⟨next', hnext, h⟩ := bind_ok h
  obtain ⟨-, -, h⟩ := bind_ok h
  obtain ⟨-, -, h⟩ := bind_ok h
  obtain ⟨r, hr, h⟩ := bind_ok h
  obtain ⟨⟨⟩, hcheck, h⟩ := bind_ok h
  obtain ⟨-, -, h⟩ := bind_ok h
  obtain ⟨rfl, rfl⟩ := Prod.mk.inj (Except.ok.inj h)
  refine ⟨?_, ⟨raw, put, ok_of_mapError hraw, hput, ok_of_mapError hnext⟩,
    file, r, ok_of_mapError hfile, ok_of_mapError hr, ok_of_mapError hcheck⟩
  cases hc : c.uiPath with
  | none =>
    rw [hc] at hpath
    cases hpath
  | some p =>
    rw [hc] at hpath
    exact congrArg some (Except.ok.inj hpath)

/-- A change is refused, or it passed and was written. -/
theorem apply_cases {lib : SettingsLib} {toml : TomlLib} {c : Control} {host : Host}
    {io : Except String Unit} {body : List UInt8} {result : Except Answer Unit} {ui : UiFile}
    (h : apply lib toml json c host io body = (result, ui)) :
    (∃ a, result = .error a ∧ ui = host.ui) ∨
      (result = .ok () ∧ ∃ path next, validate lib toml json c host body = .ok (path, next) ∧
        write toml io next = .ok ui) := by
  unfold apply at h
  split at h
  · obtain ⟨rfl, rfl⟩ := Prod.mk.inj h
    exact .inl ⟨_, rfl, rfl⟩
  · rename_i path next hvalidate
    split at h
    · obtain ⟨rfl, rfl⟩ := Prod.mk.inj h
      exact .inl ⟨_, rfl, rfl⟩
    · rename_i ui' hwrite
      obtain ⟨rfl, rfl⟩ := Prod.mk.inj h
      exact .inr ⟨rfl, path, next, hvalidate, hwrite⟩

/-- What is written is loaded. -/
theorem load_of_write {toml : TomlLib} {before next : UiConfig} {io : Except String Unit}
    {ui : UiFile} (hlib : RoundTrips toml json before) (h : write toml io next = .ok ui)
    (path : String) : load toml path ui = .ok next := by
  obtain ⟨text, htext, h⟩ := bind_ok h
  obtain ⟨-, -, h⟩ := bind_ok h
  obtain rfl := Except.ok.inj h
  show (toml.fromStr (header ++ text)).mapError (parseFailure path (header ++ text)) = .ok next
  rw [hlib.ofToml next text htext]
  rfl

/-- A start is on what the UI wrote where that would not stop it. -/
theorem resolveAtStart_of_load {lib : SettingsLib} {toml : TomlLib} {cli : Cli}
    {file : Option FileConfig} {path : String} {ui : UiFile} {env : Env} {next : UiConfig}
    {r : Resolved} (hload : load toml path ui = .ok next)
    (hr : Settings.resolve lib cli file (some next) env = .ok r)
    (hcheck : check lib r.settings = .ok ()) :
    resolveAtStart lib toml cli file (some path) ui env = .ok (r, next) := by
  have hstopping : stopping lib (Settings.resolve lib cli file (some next) env) = none := by
    rw [hr]
    unfold stopping
    simp only [hcheck]
  unfold resolveAtStart
  rw [Option.elim_some, hload]
  dsimp only
  unfold resolveWith
  dsimp only
  rw [hstopping, hr]
  rfl

end Json

/-! ### Pipelines -/

/-- An interval that a `Duration` holds, less than nothing and no number taken for none. -/
def F64.fits : F64 → Bool
  | nan => true
  | infinite negative => negative
  | finite v => v < 2 ^ 64

theorem F64.isSome_duration (x : F64) : x.duration.isSome = x.fits := by
  cases x with
  | nan => rfl
  | infinite negative => cases negative <;> rfl
  | finite v =>
    show (if v < 2 ^ 64 then some (max v 0) else none).isSome = decide (v < 2 ^ 64)
    split_ifs with h
    · exact (decide_eq_true h).symm
    · exact (decide_eq_false h).symm

/-- Sizes and intervals a pipeline can be built from. -/
structure Batching.Fits (b : Batching) (statsInterval : F64) : Prop where
  queueSize : b.queueSize.toNat ≤ maxPermits
  size : b.size.toNat ≤ maxPointers
  flushInterval : b.flushInterval.fits = true
  statsInterval : statsInterval.fits = true

section Pipeline

variable {S C α : Type}

theorem channel_isSome {sink : S} {cache : C} {b : Batching} {statsInterval : F64} :
    (∃ p : Pipeline S C α, channel sink cache b statsInterval = some p ∧ p.batchRoom.isSome = true) ↔
      b.Fits statsInterval := by
  constructor
  · rintro ⟨p, hp, hroom⟩
    unfold channel at hp
    split_ifs at hp with hqueue
    obtain ⟨flush, hflush, hp⟩ := Option.bind_eq_some_iff.mp hp
    obtain ⟨stats, hstats, rfl⟩ := Option.map_eq_some_iff.mp hp
    unfold Pipeline.batchRoom at hroom
    split_ifs at hroom with hsize
    · cases hroom
    · have hbatch : max b.size.toNat 1 ≤ maxPointers := Nat.le_of_not_lt hsize
      refine ⟨by omega, by omega, ?_, ?_⟩
      · rw [← F64.isSome_duration, hflush, Option.isSome_some]
      · rw [← F64.isSome_duration, hstats, Option.isSome_some]
  · rintro ⟨hqueue, hsize, hflush, hstats⟩
    obtain ⟨flush, hflush⟩ := Option.isSome_iff_exists.mp
      (b.flushInterval.isSome_duration.trans hflush)
    obtain ⟨stats, hstats⟩ := Option.isSome_iff_exists.mp
      (statsInterval.isSome_duration.trans hstats)
    have hqueue : ¬ maxPermits < max b.queueSize.toNat 1 := by
      unfold maxPermits at *
      omega
    have hroom : ¬ maxPointers < max b.size.toNat 1 := by
      unfold maxPointers at *
      omega
    unfold channel
    rw [if_neg hqueue, hflush, hstats]
    exact ⟨_, rfl, congrArg Option.isSome (if_neg hroom)⟩

/-- Every pipeline is built exactly if each one's numbers fit. -/
theorem startAll_isSome {opened : Forward → S × C} {statsInterval : F64} {fs : List Forward} :
    (∃ ps : List (String × Pipeline S C α), startAll opened statsInterval fs = some ps ∧
        ∀ p ∈ ps, p.2.batchRoom.isSome = true) ↔
      ∀ f ∈ fs, f.batching.Fits statsInterval := by
  induction fs with
  | nil => exact ⟨fun _ _ hf => absurd hf List.not_mem_nil, fun _ => ⟨[], rfl, by simp⟩⟩
  | cons f fs ih =>
    rw [List.forall_mem_cons, ← ih, ← @channel_isSome S C α (opened f).1 (opened f).2]
    constructor
    · rintro ⟨ps, hps, hroom⟩
      obtain ⟨p, hp, hps⟩ := Option.bind_eq_some_iff.mp hps
      obtain ⟨rest, hrest, rfl⟩ := Option.map_eq_some_iff.mp hps
      obtain ⟨hfirst, hroom⟩ := List.forall_mem_cons.mp hroom
      exact ⟨⟨p, hp, hfirst⟩, rest, hrest, hroom⟩
    · rintro ⟨⟨p, hp, hfirst⟩, rest, hrest, hroom⟩
      refine ⟨(f.database, p) :: rest, ?_, List.forall_mem_cons.mpr ⟨hfirst, hroom⟩⟩
      unfold startAll
      rw [hp, Option.bind_some, hrest]
      rfl

end Pipeline

namespace Settings

/-- Adding what is missing leaves nothing out. -/
theorem foldl_ne_nil {fed out : List String} (h : out ≠ [] ∨ fed ≠ []) :
    fed.foldl (fun out db => if out.contains db then out else out ++ [db]) out ≠ [] := by
  induction fed generalizing out with
  | nil => exact h.resolve_right fun hne => hne rfl
  | cons db fed ih =>
    rw [List.foldl_cons]
    apply ih
    left
    split_ifs with hin
    · rintro rfl
      cases hin
    · exact List.append_ne_nil_of_right_ne_nil _ (List.cons_ne_nil _ _)

/-- A start that `check` lets through has a database to feed. -/
theorem databases_ne_nil {lib : SettingsLib} {s : Settings}
    (hdevices : ∀ d ∈ s.devices, d.databases ≠ []) (hcheck : check lib s = .ok ()) :
    s.databases ≠ [] := by
  unfold check at hcheck
  split_ifs at hcheck with hnothing
  apply foldl_ne_nil
  cases hingest : s.ingest with
  | some i =>
    left
    rw [Option.isSome_some, Bool.true_or, if_pos rfl]
    exact List.cons_ne_nil _ _
  | none =>
    right
    rw [hingest, Option.isNone_none, Bool.and_true, List.isEmpty_iff] at hnothing
    obtain ⟨d, hd⟩ := List.exists_mem_of_ne_nil _ hnothing
    intro hfed
    exact hdevices d hd (List.flatMap_eq_nil_iff.mp hfed d hd)

theorem databases_ne_nil_of_resolve {lib : SettingsLib} {cli : Cli} {file : Option FileConfig}
    {ui : Option UiConfig} {env : Env} {r : Resolved} (hr : resolve lib cli file ui env = .ok r)
    (hcheck : check lib r.settings = .ok ()) : r.settings.databases ≠ [] := by
  refine databases_ne_nil ?_ hcheck
  obtain ⟨-, _, s, set, dir, devices, -, -, -, -, -, hdevices, hsettings⟩ :=
    layers_of_resolveLayered hr
  rw [hsettings]
  exact databases_ne_nil_of_buildDevices hdevices

/-- The pipelines differ in their caches alone. -/
theorem fits_forwards {lib : SettingsLib} {s : Settings} {f : Forward} (hf : s.forward = some f)
    (hne : s.databases ≠ []) :
    (∀ g ∈ s.forwards lib, g.batching.Fits s.statsInterval) ↔ f.batching.Fits s.statsInterval := by
  have hsame (database : String) : (forDatabase lib f database).batching.Fits s.statsInterval ↔
      f.batching.Fits s.statsInterval := by
    unfold forDatabase
    split_ifs
    · exact Iff.rfl
    · exact ⟨fun h => ⟨h.1, h.2, h.3, h.4⟩, fun h => ⟨h.1, h.2, h.3, h.4⟩⟩
  unfold forwards
  rw [hf]
  dsimp only
  rw [List.forall_mem_map]
  constructor
  · intro h
    obtain ⟨database, hdatabase⟩ := List.exists_mem_of_ne_nil _ hne
    exact (hsame database).mp (h database hdatabase)
  · intro h database _
    exact (hsame database).mpr h

end Settings

/-! ### The condition -/

section Json

variable {J : Type}

/-- What a key is to hold: what the body says, else what it holds now. -/
def asked (json : JsonLib J) (raw : List (String × J)) (before : UiConfig) (k : UiKey) :
    Option k.Value :=
  match raw.lookup k.name with
  | some v => (k.decode json v).toOption.join
  | none => UiKey.get before k

/-- What is then in force: the file's, else the flag's if it was given, else what was asked for, else
the flag's default. -/
def inForce {α : Type} (cli : Cli) (k : UiKey) (inFile asked : Option α) (now : α) : α :=
  inFile.getD (if cli.isGiven k.flag then now else asked.getD now)

/-- `[forward]` is off, or the sizes and intervals in force are ones a pipeline can be built from. -/
def Buildable (cli : Cli) (file : Option FileConfig) (asked : (k : UiKey) → Option k.Value) : Prop :=
  let enable := inForce cli .forwardEnable none (asked .forwardEnable) cli.forwardEnable
  Settings.forwardOn { cli with forwardEnable := enable } file = true →
    (inForce cli .queueSize (file.bind (·.forward.queueSize)) (asked .queueSize)
      cli.pgQueueSize).toNat ≤ maxPermits ∧
    (inForce cli .batchSize (file.bind (·.forward.batchSize)) (asked .batchSize)
      cli.pgBatchSize).toNat ≤ maxPointers ∧
    (inForce cli .flushInterval (file.bind (·.forward.flushInterval)) (asked .flushInterval)
      cli.pgFlushInterval).fits = true ∧
    ((file.bind (·.logging.statsInterval)).getD cli.statsInterval).fits = true

theorem asked_of_changed {json : JsonLib J} {raw : List (String × J)} {before after : UiConfig}
    (h : Changed json raw before after) : asked json raw before = UiKey.get after := by
  funext k
  have hk := h k
  unfold asked
  split at hk
  · rw [hk]
    rfl
  · exact hk.symm

/-- What the UI's values come to under the flags. -/
theorem fill_eq {α : Type} (cli : Cli) (k : UiKey) (inFile value : Option α) (now : α) :
    inFile.getD (match value with
      | some v => if cli.isGiven k.flag then now else v
      | none => now) = inForce cli k inFile value now := by
  unfold inForce
  cases value with
  | none => simp
  | some v => rfl

theorem forwardOn_beneath (cli : Cli) (file : Option FileConfig) (ui : UiConfig) :
    Settings.forwardOn (ui.beneath cli) file = Settings.forwardOn { cli with
      forwardEnable := inForce cli .forwardEnable none ui.forward.enable cli.forwardEnable } file := by
  rw [← fill_eq]
  rfl

/-- The pipelines of a start on `ui` are built exactly if its numbers fit. -/
theorem fits_iff_buildable {lib : SettingsLib} {cli : Cli} {file : Option FileConfig}
    {ui : UiConfig} {env : Env} {r : Resolved}
    (hr : Settings.resolve lib cli file (some ui) env = .ok r)
    (hcheck : check lib r.settings = .ok ()) :
    (∀ f ∈ r.settings.forwards lib, f.batching.Fits r.settings.statsInterval) ↔
      Buildable cli file (UiKey.get ui) := by
  have hfixed : Settings.Fixed lib (ui.beneath cli) file env r.settings :=
    Settings.fixed_of_layers (Settings.layers_of_resolveLayered hr)
  have hsome := hfixed.isSome_forward.trans (forwardOn_beneath cli file ui)
  cases hf : r.settings.forward with
  | none =>
    rw [hf] at hsome
    unfold Settings.forwards Buildable
    rw [hf]
    exact ⟨fun _ hforward => absurd (hsome.trans hforward) Bool.false_ne_true,
      fun _ _ hmem => absurd hmem List.not_mem_nil⟩
  | some f =>
    rw [hf] at hsome
    rw [Settings.fits_forwards hf (Settings.databases_ne_nil_of_resolve hr hcheck)]
    -- Each number is one key's value in force.
    have hof := hfixed.forward f hf
    have hqueue := hof.queueSize.trans (fill_eq cli .queueSize _ ui.forward.queueSize _)
    have hsize := hof.size.trans (fill_eq cli .batchSize _ ui.forward.batchSize _)
    have hflush := hof.flushInterval.trans (fill_eq cli .flushInterval _ ui.forward.flushInterval _)
    constructor
    · intro h _
      exact ⟨hqueue ▸ h.queueSize, hsize ▸ h.size, hflush ▸ h.flushInterval,
        hfixed.statsInterval ▸ h.statsInterval⟩
    · intro h
      obtain ⟨h₁, h₂, h₃, h₄⟩ := h hsome.symm
      refine ⟨?_, ?_, ?_, ?_⟩
      · rw [hqueue]
        exact h₁
      · rw [hsize]
        exact h₂
      · rw [hflush]
        exact h₃
      · rw [hfixed.statsInterval]
        exact h₄

end Json

/-! ### Requests side by side -/

/-- A request that has not been let through, or is refused. -/
def Stage.Out : Stage → Prop
  | .idle | .answered (.error _) => True
  | .applying _ | .validated _ _ | .answered (.ok _) => False

namespace Process

section Run

variable {J : Type} (lib : SettingsLib) (toml : TomlLib) (json : JsonLib J) (c : Control)
  (disk : UiFile)

/-- What the one request that was let through has done to `ui.toml`, which was `disk`. -/
def Held : Stage → UiFile → Prop
  | .applying _, ui => ui = disk
  | .validated path next, ui => ui = disk ∧
    ∃ load bind body, validate lib toml json c ⟨load, bind, disk⟩ body = .ok (path, next)
  | .answered (.ok _), ui =>
    ∃ load bind io body, apply lib toml json c ⟨load, bind, disk⟩ io body = (.ok (), ui)
  | .idle, _ | .answered (.error _), _ => False

/-- One request at a time is let through, and none after one that was accepted. -/
inductive Inv (p : Process) : Prop where
  | free (hflag : p.applying = false) (hout : ∀ i, (p.stage i).Out) (hui : p.ui = disk)
  | held (h : Nat) (hflag : p.applying = true) (hout : ∀ i, i ≠ h → (p.stage i).Out)
      (hheld : Held lib toml json c disk (p.stage h) p.ui)

/-- What a step does. -/
inductive Step (p : Process) : Process → Prop where
  | refuse (i : Nat) (a : Answer) (hi : p.stage i = .idle) :
    Step p (p.setStage i (.answered (.error a)))
  | take (i : Nat) (body : List UInt8) (hi : p.stage i = .idle) (hfree : p.applying = false) :
    Step p { p.setStage i (.applying body) with applying := true }
  | release (i : Nat) (a : Answer)
      (hi : (∃ body, p.stage i = .applying body) ∨ ∃ path next, p.stage i = .validated path next) :
    Step p (p.release i a)
  | validate (i : Nat) (body : List UInt8) (load : String → Except SettingsError (Option FileConfig))
      (bind : String → UInt16 → Except BindError Unit) (path : String) (next : UiConfig)
      (hi : p.stage i = .applying body)
      (hvalidate : Daemon.validate lib toml json c ⟨load, bind, p.ui⟩ body = .ok (path, next)) :
    Step p (p.setStage i (.validated path next))
  | write (i : Nat) (path : String) (next : UiConfig) (io : Except String Unit) (ui : UiFile)
      (hi : p.stage i = .validated path next) (hwrite : Daemon.write toml io next = .ok ui) :
    Step p { p.setStage i (.answered (.ok ())) with ui }

variable {lib toml json c disk}

theorem step_cases {p p' : Process} {e : Event} (h : step lib toml json c p e = some p') :
    Step lib toml json c p p' := by
  unfold step at h
  split at h
  · split at h
    · rename_i hi
      split_ifs at h with hlong hflag
      · obtain rfl := Option.some.inj h
        exact .refuse _ _ hi
      · obtain rfl := Option.some.inj h
        exact .refuse _ _ hi
      · obtain rfl := Option.some.inj h
        exact .take _ _ hi ((Bool.not_eq_true _).mp hflag)
    · cases h
  · split at h
    · rename_i body hi
      split at h
      · obtain rfl := Option.some.inj h
        exact .release _ _ (.inl ⟨body, hi⟩)
      · rename_i path next hvalidate
        obtain rfl := Option.some.inj h
        exact .validate _ body _ _ path next hi hvalidate
    · cases h
  · split at h
    · rename_i path next hi
      split at h
      · obtain rfl := Option.some.inj h
        exact .release _ _ (.inr ⟨path, next, hi⟩)
      · rename_i ui hwrite
        obtain rfl := Option.some.inj h
        exact .write _ path next _ ui hi hwrite
    · cases h

/-- Who is let through is the one that holds `applying`. -/
theorem Inv.of_not_out {p : Process} (h : Inv lib toml json c disk p) {i : Nat}
    (hi : ¬ (p.stage i).Out) :
    p.applying = true ∧ (∀ j, j ≠ i → (p.stage j).Out) ∧
      Held lib toml json c disk (p.stage i) p.ui := by
  cases h with
  | free hflag hout hui => exact absurd (hout i) hi
  | held h hflag hout hheld =>
    by_cases hih : i = h
    · subst hih
      exact ⟨hflag, hout, hheld⟩
    · exact absurd (hout i hih) hi

@[simp] theorem stage_setStage_self (p : Process) (i : Nat) (stage : Stage) :
    (p.setStage i stage).stage i = stage :=
  Function.update_self ..

theorem stage_setStage_of_ne (p : Process) {i j : Nat} (h : j ≠ i) (stage : Stage) :
    (p.setStage i stage).stage j = p.stage j :=
  Function.update_of_ne h ..

/-- The others are where they were. -/
theorem out_setStage {p : Process} {i : Nat} (stage : Stage)
    (h : ∀ j, j ≠ i → (p.stage j).Out) : ∀ j, j ≠ i → ((p.setStage i stage).stage j).Out := by
  intro j hj
  rw [stage_setStage_of_ne p hj]
  exact h j hj

/-- One that is refused before it is let through changes nothing. -/
theorem Inv.refuse {p : Process} (hinv : Inv lib toml json c disk p) {i : Nat} {a : Answer}
    (hi : p.stage i = .idle) : Inv lib toml json c disk (p.setStage i (.answered (.error a))) := by
  have hrefused : ∀ j, (p.stage j).Out → ((p.setStage i (.answered (.error a))).stage j).Out := by
    intro j hj
    by_cases hji : j = i
    · subst hji
      rw [stage_setStage_self]
      trivial
    · rw [stage_setStage_of_ne p hji]
      exact hj
  cases hinv with
  | free hflag hout hui => exact .free hflag (fun j => hrefused j (hout j)) hui
  | held h hflag hout hheld =>
    have hne : h ≠ i := by
      rintro rfl
      rw [hi] at hheld
      exact hheld
    refine .held h hflag (fun j hj => hrefused j (hout j hj)) ?_
    rw [stage_setStage_of_ne p hne]
    exact hheld

/-- One that finds nobody let through is. -/
theorem Inv.take {p : Process} (hinv : Inv lib toml json c disk p) (hfree : p.applying = false)
    (i : Nat) (body : List UInt8) :
    Inv lib toml json c disk { p.setStage i (.applying body) with applying := true } := by
  cases hinv with
  | free hflag hout hui =>
    refine .held i rfl (out_setStage _ fun j _ => hout j) ?_
    show Held lib toml json c disk ((p.setStage i (.applying body)).stage i) p.ui
    rw [stage_setStage_self]
    exact hui
  | held h hflag hout hheld => exact absurd (hfree.symm.trans hflag) Bool.false_ne_true

/-- One that is refused later has written nothing. -/
theorem Inv.release {p : Process} (hinv : Inv lib toml json c disk p) {i : Nat} (a : Answer)
    (hi : (∃ body, p.stage i = .applying body) ∨ ∃ path next, p.stage i = .validated path next) :
    Inv lib toml json c disk (p.release i a) := by
  have hnot : ¬ (p.stage i).Out := by
    rcases hi with ⟨body, hi⟩ | ⟨path, next, hi⟩ <;> rw [hi] <;> exact id
  obtain ⟨-, hout, hheld⟩ := hinv.of_not_out hnot
  refine .free rfl (fun j => ?_) ?_
  · by_cases hji : j = i
    · subst hji
      show ((p.setStage j (.answered (.error a))).stage j).Out
      rw [stage_setStage_self]
      trivial
    · exact out_setStage _ hout j hji
  · rcases hi with ⟨body, hi⟩ | ⟨path, next, hi⟩
    · rw [hi] at hheld
      exact hheld
    · rw [hi] at hheld
      exact hheld.1

theorem Inv.step {p p' : Process} {e : Event} (hinv : Inv lib toml json c disk p)
    (h : step lib toml json c p e = some p') : Inv lib toml json c disk p' := by
  rcases step_cases h with ⟨i, a, hi⟩ | ⟨i, body, hi, hfree⟩ | ⟨i, a, hi⟩ |
    ⟨i, body, load, bind, path, next, hi, hvalidate⟩ | ⟨i, path, next, io, ui, hi, hwrite⟩
  · exact hinv.refuse hi
  · exact hinv.take hfree i body
  · exact hinv.release a hi
  · obtain ⟨hflag, hout, hheld⟩ := hinv.of_not_out (i := i) (hi ▸ id)
    rw [hi] at hheld
    refine .held i hflag (out_setStage _ hout) ?_
    rw [stage_setStage_self]
    exact ⟨hheld, load, bind, body, hheld ▸ hvalidate⟩
  · obtain ⟨hflag, hout, hheld⟩ := hinv.of_not_out (i := i) (hi ▸ id)
    rw [hi] at hheld
    obtain ⟨-, load, bind, body, hvalidate⟩ := hheld
    refine .held i hflag (out_setStage _ hout) ?_
    show Held lib toml json c disk ((p.setStage i (.answered (.ok ()))).stage i) ui
    rw [stage_setStage_self]
    refine ⟨load, bind, io, body, ?_⟩
    unfold apply
    rw [hvalidate]
    dsimp only
    rw [hwrite]

theorem inv_of_runs {es : List Event} {p : Process}
    (h : runs (step lib toml json c) (start disk) es = some p) : Inv lib toml json c disk p := by
  have hstart : Inv lib toml json c disk (start disk) := .free rfl (fun _ => trivial) rfl
  exact invariant_of_runs Inv.step hstart h

theorem Accepted.not_out {p : Process} {i : Nat} (h : p.Accepted i) : ¬ (p.stage i).Out := by
  rw [h]
  exact id

/-- Of the requests a process takes at most one is accepted, and `ui.toml` is what that one alone
would have left. -/
structure AcceptsOne (lib : SettingsLib) (toml : TomlLib) (json : JsonLib J) (c : Control)
    (disk : UiFile) (p : Process) : Prop where
  one : ∀ i j, p.Accepted i → p.Accepted j → i = j
  unchanged : (∀ i, ¬ p.Accepted i) → p.ui = disk
  applied : ∀ i, p.Accepted i →
    ∃ load bind io body, apply lib toml json c ⟨load, bind, disk⟩ io body = (.ok (), p.ui)

theorem Inv.acceptsOne {p : Process} (hinv : Inv lib toml json c disk p) :
    AcceptsOne lib toml json c disk p where
  one := by
    intro i j hi hj
    obtain ⟨-, hout, -⟩ := hinv.of_not_out hj.not_out
    by_contra hij
    exact hi.not_out (hout i hij)
  unchanged := by
    intro hnone
    cases hinv with
    | free hflag hout hui => exact hui
    | held h hflag hout hheld =>
      cases hh : p.stage h with
      | idle =>
        rw [hh] at hheld
        exact hheld.elim
      | applying body =>
        rw [hh] at hheld
        exact hheld
      | validated path next =>
        rw [hh] at hheld
        exact hheld.1
      | answered answer =>
        rw [hh] at hheld
        cases answer with
        | error a => exact hheld.elim
        | ok u => exact absurd hh (hnone h)
  applied := by
    intro i hi
    obtain ⟨-, -, hheld⟩ := hinv.of_not_out hi.not_out
    rw [hi] at hheld
    exact hheld

end Run

end Process

/-! ### The next start -/

section NextStart

variable {J S C : Type} (α : Type)

/-- `ui.toml` is now `ui`, which holds what `disk` did but for the body's keys, and a start goes ahead
on it and builds every pipeline. -/
def NextStart (lib : SettingsLib) (toml : TomlLib) (json : JsonLib J) (c : Control)
    (file : Option FileConfig) (path : String) (raw : List (String × J)) (disk : UiFile)
    (opened : Forward → S × C) (ui : UiFile) : Prop :=
  ∃ before next r, load toml path disk = .ok before ∧ load toml path ui = .ok next ∧
    Changed json raw before next ∧
    resolveAtStart lib toml c.cli file (some path) ui c.env = .ok (r, next) ∧
    Settings.resolve lib c.cli file (some next) c.env = .ok r ∧
    ∃ ps : List (String × Pipeline S C α),
      startAll opened r.settings.statsInterval (r.settings.forwards lib) = some ps ∧
      ∀ p ∈ ps, p.2.batchRoom.isSome = true

/-- What can be read is what is merged into. -/
theorem stored_of_load {toml : TomlLib} {path : String} {disk : UiFile} {before : UiConfig}
    (h : load toml path disk = .ok before) : stored toml path disk = before := by
  rw [stored, h]
  rfl

theorem nextStart_iff {lib : SettingsLib} {toml : TomlLib} {json : JsonLib J} {c : Control}
    {host : Host} {io : Except String Unit} {body : List UInt8} {ui : UiFile}
    {path : String} {file : Option FileConfig} {raw : List (String × J)} {put : List (UiKey × J)}
    {next : UiConfig} {r : Resolved} {opened : Forward → S × C}
    (hlib : RoundTrips toml json (stored toml path host.ui))
    (hraw : json.fromSlice body = .ok raw) (hput : named raw = .ok put)
    (hmerge : merge json (stored toml path host.ui) put = .ok next)
    (hr : Settings.resolve lib c.cli file (some next) c.env = .ok r)
    (hcheck : check lib r.settings = .ok ()) (hwrite : write toml io next = .ok ui) :
    NextStart α lib toml json c file path raw host.ui opened ui ↔
      ∃ before, load toml path host.ui = .ok before ∧
        Buildable c.cli file (asked json raw before) := by
  have hload := load_of_write hlib hwrite path
  have hchanged := changed_of_merge hlib hraw hput hmerge
  have hbuild := fits_iff_buildable hr hcheck
  rw [← @startAll_isSome S C α opened r.settings.statsInterval] at hbuild
  constructor
  · rintro ⟨before, next', r', hbefore, hload', -, -, hr', hbuilt⟩
    obtain rfl := Except.ok.inj (hload.symm.trans hload')
    obtain rfl := Except.ok.inj (hr.symm.trans hr')
    rw [stored_of_load hbefore] at hchanged
    refine ⟨before, hbefore, ?_⟩
    rw [asked_of_changed hchanged]
    exact hbuild.mp hbuilt
  · rintro ⟨before, hbefore, hbuildable⟩
    rw [stored_of_load hbefore] at hchanged
    rw [asked_of_changed hchanged] at hbuildable
    exact ⟨before, next, r, hbefore, hload, hchanged, resolveAtStart_of_load hload hr hcheck, hr,
      hbuild.mpr hbuildable⟩

theorem apply_next_start (lib : SettingsLib) (toml : TomlLib) (json : JsonLib J) (c : Control)
    (host : Host) (io : Except String Unit) (body : List UInt8) (opened : Forward → S × C)
    (hlib : ∀ path, RoundTrips toml json (stored toml path host.ui)) :
    (∀ a ui, apply lib toml json c host io body = (.error a, ui) → ui = host.ui) ∧
      (∀ ui, apply lib toml json c host io body = (.ok (), ui) →
        ∃ path file raw, c.uiPath = some path ∧ host.configFile c.cli = .ok file ∧
          json.fromSlice body = .ok raw ∧
          (NextStart α lib toml json c file path raw host.ui opened ui ↔
            ∃ before, load toml path host.ui = .ok before ∧
              Buildable c.cli file (asked json raw before))) ∧
      ∀ es p, runs (Process.step lib toml json c) (.start host.ui) es = some p →
        Process.AcceptsOne lib toml json c host.ui p := by
  refine ⟨fun a ui h => ?_, fun ui h => ?_, fun es p h => (Process.inv_of_runs h).acceptsOne⟩
  · rcases apply_cases h with ⟨_, -, hui⟩ | ⟨hok, -⟩
    · exact hui
    · cases hok
  · rcases apply_cases h with ⟨_, herror, -⟩ | ⟨-, path, next, hvalidate, hwrite⟩
    · cases herror
    · obtain ⟨hpath, ⟨raw, put, hraw, hput, hmerge⟩, file, r, hfile, hr, hcheck⟩ :=
        passed_of_validate hvalidate
      exact ⟨path, file, raw, hpath, hfile, hraw,
        nextStart_iff α (hlib path) hraw hput hmerge hr hcheck hwrite⟩

end NextStart

/-! ### Two bodies -/

/-- `PUT` of a flush interval of two seconds. -/
def shortBody : String := "\x7b\"forward.flush_interval\": 2\x7d"

/-- Or of longer than a `Duration` holds. -/
def longBody : String := "\x7b\"forward.flush_interval\": 1e20\x7d"

def benchJson : JsonLib JsonValue :=
  JsonValue.serde
    (fun body =>
      if body = Lib.toUtf8 shortBody.toList then .ok [("forward.flush_interval", .number 2)]
      else if body = Lib.toUtf8 longBody.toList then
        .ok [("forward.flush_interval", .number 100000000000000000000)]
      else .error "expected value")
    JsonValue.ofString

def intervalUi (v : Rat) : UiConfig :=
  { (default : UiConfig) with
    forward := { (default : UiForward) with flushInterval := some (.finite v) } }

def intervalText (shown : String) : String :=
  "[forward]\nflush_interval = " ++ shown ++ "\n\n[ingest]\n\n[logging]\n"

/-- A port that is a text, in a file that has more in it. -/
def mistypedText : String := "[forward]\nhost = \"gateway.local\"\nport = \"7777\"\n"

def benchToml : TomlLib where
  fromStr := fun text =>
    if text = header ++ intervalText "2.0" then .ok (intervalUi 2)
    else if text = header ++ intervalText "100000000000000000000.0" then
      .ok (intervalUi 100000000000000000000)
    else .error (none, "invalid type")
  toStr := fun ui =>
    if ui = intervalUi 2 then .ok (intervalText "2.0")
    else if ui = intervalUi 100000000000000000000 then
      .ok (intervalText "100000000000000000000.0")
    else .error "unsupported"

/-- A daemon on `benchCli`, with no config file. -/
def benchControl (running : Settings) : Control where
  cli := benchCli
  uiPath := some "ui.toml"
  env := benchEnv
  running

def benchHost (ui : UiFile) : Host where
  load := fun _ => .ok none
  bind := fun _ _ => .ok ()
  ui

theorem bench_roundTrips : RoundTrips benchToml benchJson default where
  ofToml := by
    intro ui text h
    simp only [benchToml] at h ⊢
    split_ifs at h with h₁ h₂
    · obtain rfl := Except.ok.inj h
      rw [if_pos rfl, h₁]
    · obtain rfl := Except.ok.inj h
      rw [if_neg (by decide +kernel), if_pos rfl, h₂]
  ofValue := by
    intro k
    cases k <;> rfl
  ofSlice := by
    intro body raw h
    simp only [benchJson, JsonValue.serde] at h
    split_ifs at h
    · obtain rfl := Except.ok.inj h
      decide
    · obtain rfl := Except.ok.inj h
      decide

/-- `longBody` is accepted, and `channel` panics on it at the next start.  `shortBody` is accepted
where `ui.toml` has a port that is a text, and the gateway's host in it is lost. -/
theorem apply_interval_too_long :
    ∃ r, Settings.resolve .bare benchCli none none benchEnv = .ok r ∧
      (∀ path, RoundTrips benchToml benchJson (stored benchToml path .absent)) ∧
      (∃ ui, apply .bare benchToml benchJson (benchControl r.settings) (benchHost .absent) (.ok ())
          (Lib.toUtf8 longBody.toList) = (.ok (), ui) ∧
        ¬ NextStart Unit .bare benchToml benchJson (benchControl r.settings) none "ui.toml"
          [("forward.flush_interval", .number 100000000000000000000)] .absent
          (fun _ => ((), ())) ui) ∧
      (∀ path, RoundTrips benchToml benchJson (stored benchToml path (.text mistypedText))) ∧
      ∃ ui, apply .bare benchToml benchJson (benchControl r.settings)
          (benchHost (.text mistypedText)) (.ok ()) (Lib.toUtf8 shortBody.toList) = (.ok (), ui) ∧
        load benchToml "ui.toml" ui = .ok (intervalUi 2) ∧
        UiKey.get (intervalUi 2) .forwardHost = none ∧
        ¬ NextStart Unit .bare benchToml benchJson (benchControl r.settings) none "ui.toml"
          [("forward.flush_interval", .number 2)] (.text mistypedText) (fun _ => ((), ())) ui := by
  have hlong : write benchToml (.ok ()) (intervalUi 100000000000000000000) =
      .ok (.text (header ++ intervalText "100000000000000000000.0")) := rfl
  have hshort : write benchToml (.ok ()) (intervalUi 2) =
      .ok (.text (header ++ intervalText "2.0")) := rfl
  refine ⟨_, rfl, fun _ => bench_roundTrips, ⟨_, rfl, ?_⟩, fun _ => bench_roundTrips, _, rfl,
    load_of_write bench_roundTrips hshort "ui.toml", rfl, ?_⟩
  · rintro ⟨_, next, r, -, hload, -, -, hr, ps, hps, -⟩
    have hnext := load_of_write bench_roundTrips hlong "ui.toml"
    obtain rfl := Except.ok.inj (hnext.symm.trans hload)
    obtain rfl := Except.ok.inj hr
    cases hps
  · rintro ⟨before, _, _, hbefore, -⟩
    cases hbefore

theorem apply_next_start_bench :
    ∃ r, Settings.resolve .bare benchCli none none benchEnv = .ok r ∧
      ∃ ui, apply .bare benchToml benchJson (benchControl r.settings) (benchHost .absent) (.ok ())
          (Lib.toUtf8 shortBody.toList) = (.ok (), ui) ∧
        NextStart Unit .bare benchToml benchJson (benchControl r.settings) none "ui.toml"
          [("forward.flush_interval", .number 2)] .absent (fun _ => ((), ())) ui := by
  obtain ⟨r, hr⟩ : ∃ r, Settings.resolve .bare benchCli none none benchEnv = .ok r := ⟨_, rfl⟩
  have h := apply_next_start Unit .bare benchToml benchJson (benchControl r.settings)
    (benchHost .absent) (.ok ()) (Lib.toUtf8 shortBody.toList) (fun _ => ((), ()))
    fun _ => bench_roundTrips
  obtain rfl := Except.ok.inj hr
  obtain ⟨path, file, raw, hpath, hfile, hraw, hiff⟩ := h.2.1 _ rfl
  obtain rfl := Option.some.inj hpath
  obtain rfl := Except.ok.inj hfile
  obtain rfl := Except.ok.inj hraw
  refine ⟨_, hr, _, rfl, hiff.mpr ⟨default, rfl, ?_⟩⟩
  intro _
  decide

end WireTap.Daemon
