import Mathlib.Tactic.SplitIfs
import WireTap.Daemon.Control
import WireTap.Daemon.Equiv.Layers

/-!
# The layer shown for a secret

`secrets_in_force_iff`: the secret in the settings is the value of the layer `sourceOf` names exactly
where no empty value hides another.  For `sourceOf` an empty value is a gap in every layer.  For
`resolve` it is one only at the end: an empty secret in the file is written over a flag's, and an
empty one in the environment is taken before the UI's.
-/

namespace WireTap.Daemon

/-- What the layers have a secret at. -/
structure SecretLayers where
  inFile : Option String
  inFlag : Option String
  fromEnv : Option String
  fromUi : Option String

namespace SecretLayers

/-- What one of them has it at. -/
def value (l : SecretLayers) : Source → String
  | .file => l.inFile.getD ""
  | .flag _ => l.inFlag.getD ""
  | .env _ => l.fromEnv.getD ""
  | .ui => l.fromUi.getD ""
  | .default => ""

/-- `secret` is the value of the layer that is named, and empty exactly if that is the default. -/
def InForce (l : SecretLayers) (source : Source) (secret : String) : Prop :=
  secret = l.value source ∧ (secret = "" ↔ source = .default)

/-- An empty secret in the file hides a flag's that is not what the gap is filled with. -/
def FlagHidden (l : SecretLayers) : Prop :=
  l.inFile = some "" ∧ l.inFlag.getD "" ≠ "" ∧ l.fromEnv.or l.fromUi ≠ l.inFlag

/-- An empty secret in the environment hides the UI's. -/
def UiHidden (l : SecretLayers) : Prop :=
  l.inFile.getD "" = "" ∧ l.inFlag.getD "" = "" ∧ l.fromEnv = some "" ∧ l.fromUi.getD "" ≠ ""

/-- A layer has a secret if it has one that is not empty. -/
theorem any_not_isEmpty (layer : Option String) :
    layer.any (!·.isEmpty) = decide (layer.getD "" ≠ "") := by
  cases layer with
  | none => rfl
  | some x =>
    rw [Option.any_some, Option.getD_some, Bool.eq_iff_iff]
    simp

theorem eq_some_of_getD_ne {layer : Option String} (h : layer.getD "" ≠ "") :
    ∃ x, layer = some x ∧ x ≠ "" := by
  cases layer with
  | none => exact absurd rfl h
  | some x => exact ⟨x, rfl, h⟩

/-- `now` is empty, so the gap is filled. -/
theorem fillSecret_empty (env ui : Option String) : Settings.fillSecret "" env ui = (env.or ui).getD "" :=
  rfl

theorem fillSecret_of_ne {now : String} (h : now ≠ "") (env ui : Option String) :
    Settings.fillSecret now env ui = now := by
  unfold Settings.fillSecret
  rw [if_neg]
  simpa using h

/-- Where neither the file nor a flag has the secret. -/
theorem inForce_gap {l : SecretLayers} {var : String} :
    l.InForce (if l.fromEnv.getD "" ≠ "" then .env var
      else if l.fromUi.getD "" ≠ "" then .ui else .default) ((l.fromEnv.or l.fromUi).getD "") ↔
    ¬ (l.fromEnv = some "" ∧ l.fromUi.getD "" ≠ "") := by
  unfold InForce
  by_cases henv : l.fromEnv.getD "" = ""
  · rw [if_neg (not_not_intro henv)]
    cases hlayer : l.fromEnv with
    | none =>
      rw [Option.none_or]
      by_cases hui : l.fromUi.getD "" = ""
      · simp [hui, value]
      · simp [hui, value]
    | some x =>
      rw [hlayer] at henv
      obtain rfl : x = "" := henv
      by_cases hui : l.fromUi.getD "" = ""
      · simp [hui, value]
      · simp [hui, value, Ne.symm hui]
  · rw [if_pos henv]
    obtain ⟨x, hx, hne⟩ := eq_some_of_getD_ne henv
    simp [hx, hne, value]

theorem inForce_iff (l : SecretLayers) (field var : String) :
    l.InForce (.ofSecret field var l.inFile l.inFlag l.fromEnv l.fromUi)
        (Settings.fillSecret (l.inFile.getD (l.inFlag.getD "")) l.fromEnv l.fromUi) ↔
      ¬ l.FlagHidden ∧ ¬ l.UiHidden := by
  unfold Source.ofSecret
  simp only [any_not_isEmpty, decide_eq_true_eq]
  unfold FlagHidden UiHidden
  by_cases hfile : l.inFile.getD "" = ""
  · rw [if_neg (not_not_intro hfile)]
    by_cases hflag : l.inFlag.getD "" = ""
    · -- Neither has it: the gap is filled.
      rw [if_neg (not_not_intro hflag)]
      have hnow : l.inFile.getD (l.inFlag.getD "") = "" := by
        rw [hflag]
        exact hfile
      rw [hnow, fillSecret_empty, inForce_gap]
      simp [hfile, hflag]
    · rw [if_pos hflag]
      obtain ⟨x, hx, hne⟩ := eq_some_of_getD_ne hflag
      cases hlayer : l.inFile with
      | none =>
        rw [Option.getD_none, hx, Option.getD_some, fillSecret_of_ne hne]
        simp [InForce, value, hx, hne]
      | some y =>
        -- An empty one in the file hides the flag's, and the gap is filled from below both.
        rw [hlayer] at hfile
        obtain rfl : y = "" := hfile
        rw [Option.getD_some, fillSecret_empty, hx, Option.getD_some]
        have hsame : (l.fromEnv.or l.fromUi).getD "" = x ↔ l.fromEnv.or l.fromUi = some x := by
          constructor
          · intro hgap
            obtain ⟨z, hz, -⟩ := eq_some_of_getD_ne (hgap.symm ▸ hne)
            rw [hz] at hgap ⊢
            exact congrArg some hgap
          · intro hgap
            rw [hgap, Option.getD_some]
        unfold InForce value
        rw [hx, Option.getD_some, hsame]
        constructor
        · rintro ⟨hgap, -⟩
          exact ⟨fun hhidden => hhidden.2.2 hgap, fun hhidden => hne hhidden.2.1⟩
        · rintro ⟨hhidden, -⟩
          have hgap : l.fromEnv.or l.fromUi = some x := by
            by_contra hother
            exact hhidden ⟨rfl, hne, hother⟩
          refine ⟨hgap, ?_⟩
          rw [hgap, Option.getD_some]
          exact ⟨fun hempty => absurd hempty hne, nofun⟩
  · rw [if_pos hfile]
    obtain ⟨x, hx, hne⟩ := eq_some_of_getD_ne hfile
    rw [hx, Option.getD_some, fillSecret_of_ne hne]
    simp [InForce, value, hx, hne]

end SecretLayers

/-- What the layers have `forward.api_key` at. -/
def apiKeyLayers (cli : Cli) (file : Option FileConfig) (ui : UiConfig) (env : Env) :
    SecretLayers where
  inFile := file.bind (·.forward.apiKey)
  inFlag := cli.forwardApiKey
  fromEnv := env.forwardApiKey
  fromUi := ui.forward.apiKey

/-- And `ingest.token`. -/
def tokenLayers (cli : Cli) (file : Option FileConfig) (ui : UiConfig) (env : Env) :
    SecretLayers where
  inFile := file.bind (·.ingest.token)
  inFlag := cli.ingestToken
  fromEnv := env.ingestToken
  fromUi := ui.ingest.token

theorem apiKey_eq {lib : SettingsLib} {cli : Cli} {file : Option FileConfig} {ui : UiConfig}
    {env : Env} {r : Resolved} (h : Settings.resolve lib cli file (some ui) env = .ok r) {f : Forward}
    (hf : r.settings.forward = some f) :
    f.apiKey = Settings.fillSecret ((file.bind (·.forward.apiKey)).getD (cli.forwardApiKey.getD ""))
      env.forwardApiKey ui.forward.apiKey := by
  rw [(Settings.ofLayers_of_resolve h).forward] at hf
  unfold Settings.forwardOf at hf
  split_ifs at hf
  obtain rfl := Option.some.inj hf
  rfl

theorem token_eq {lib : SettingsLib} {cli : Cli} {file : Option FileConfig} {ui : UiConfig}
    {env : Env} {r : Resolved} (h : Settings.resolve lib cli file (some ui) env = .ok r) {i : Ingest}
    (hi : r.settings.ingest = some i) :
    i.token = Settings.fillSecret ((file.bind (·.ingest.token)).getD (cli.ingestToken.getD ""))
      env.ingestToken ui.ingest.token := by
  rw [(Settings.ofLayers_of_resolve h).ingest] at hi
  unfold Settings.ingestOf at hi
  split_ifs at hi
  obtain rfl := Option.some.inj hi
  rfl

theorem secrets_in_force_iff {lib : SettingsLib} {cli : Cli} {file : Option FileConfig}
    {ui : UiConfig} {env : Env} {r : Resolved}
    (h : Settings.resolve lib cli file (some ui) env = .ok r) :
    (∀ f, r.settings.forward = some f →
      ((apiKeyLayers cli file ui env).InForce (sourceOf cli file ui env .apiKey) f.apiKey ↔
        ¬ (apiKeyLayers cli file ui env).FlagHidden ∧ ¬ (apiKeyLayers cli file ui env).UiHidden)) ∧
    (∀ i, r.settings.ingest = some i →
      ((tokenLayers cli file ui env).InForce (sourceOf cli file ui env .token) i.token ↔
        ¬ (tokenLayers cli file ui env).FlagHidden ∧ ¬ (tokenLayers cli file ui env).UiHidden)) := by
  constructor
  · intro f hf
    rw [apiKey_eq h hf]
    exact (apiKeyLayers cli file ui env).inForce_iff "forward_api_key" "WIRETAP_FORWARD_TOKEN"
  · intro i hi
    rw [token_eq h hi]
    exact (tokenLayers cli file ui env).inForce_iff "ingest_token" "WIRETAP_INGEST_TOKEN"

/-- A UI that holds a key. -/
def keyedUi : UiConfig :=
  { (default : UiConfig) with
    forward := { (default : UiForward) with apiKey := some "k1" } }

/-- `WIRETAP_FORWARD_TOKEN` set to nothing. -/
def blankEnv : Env := { benchEnv with forwardApiKey := some "" }

/-- The UI's key is shown, and the daemon runs without one. -/
theorem secret_hidden_by_blank :
    ∃ r f, Settings.resolve .bare benchCli none (some keyedUi) blankEnv = .ok r ∧
      r.settings.forward = some f ∧ sourceOf benchCli none keyedUi blankEnv .apiKey = .ui ∧
      ¬ (apiKeyLayers benchCli none keyedUi blankEnv).InForce
        (sourceOf benchCli none keyedUi blankEnv .apiKey) f.apiKey := by
  refine ⟨_, _, rfl, rfl, rfl, ?_⟩
  rintro ⟨hvalue, -⟩
  exact absurd hvalue (by decide +kernel)

theorem secrets_in_force_bench :
    ∃ r f, Settings.resolve .bare benchCli none (some keyedUi) benchEnv = .ok r ∧
      r.settings.forward = some f ∧ f.apiKey = "k1" ∧
      (apiKeyLayers benchCli none keyedUi benchEnv).InForce
        (sourceOf benchCli none keyedUi benchEnv .apiKey) f.apiKey := by
  obtain ⟨r, hr⟩ : ∃ r, Settings.resolve .bare benchCli none (some keyedUi) benchEnv = .ok r :=
    ⟨_, rfl⟩
  have h := secrets_in_force_iff hr
  obtain rfl := Except.ok.inj hr
  refine ⟨_, _, hr, rfl, rfl, (h.1 _ rfl).mpr ⟨?_, ?_⟩⟩
  · rintro ⟨hfile, -⟩
    cases hfile
  · rintro ⟨-, -, henv, -⟩
    cases henv

end WireTap.Daemon
