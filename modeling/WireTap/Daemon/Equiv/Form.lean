import Mathlib.Data.Rat.Defs
import Mathlib.Tactic.FinCases
import WireTap.Daemon.Equiv.Listing
import WireTap.Daemon.Form
import WireTap.Lib.Edit
import WireTap.Lib.Fallible
import WireTap.Lib.Text

/-!
# What an edit of one device leaves

The form is filled from the listing, which shows what the settings came to: `fd` and the database of
a device that names none are the defaults.  It sends the list whole, and every device of it with an
`fd` and what its database came to, so `merge` stores the defaults with it.
`edit_leaves_others_iff` is when it does not: a device is `Settled` if the form has it as it is
stored.

A device goes through the form as a function of itself (`DeviceDraft.ofUi`, `DeviceDraft.stored`),
so what an edit leaves is told device by device (`Edit.keepsOthers_map_iff`).
-/

namespace WireTap.Daemon

open Lib Form

/-! ### What is written is read -/

namespace JsonValue

theorem unsigned_fromValue {α : Type} {toNat : α → Nat} {ofNat : Nat → α} {bits : Nat} {n : α}
    (h : toNat n < 2 ^ bits) :
    (unsigned toNat ofNat bits).fromValue ((unsigned toNat ofNat bits).toValue n) =
      .ok (ofNat (toNat n)) := by
  have hlt : ((toNat n : Nat) : Int) < 2 ^ bits := by exact_mod_cast h
  simp only [unsigned, Rat.den_natCast, Rat.num_natCast]
  rw [if_pos ⟨trivial, Int.natCast_nonneg _, hlt⟩, Int.toNat_natCast]

theorem ofDevice_fromValue (d : UiDevice) : ofDevice.fromValue (ofDevice.toValue d) = .ok d := by
  obtain ⟨interface, fd, database⟩ := d
  cases fd <;> cases database <;> rfl

variable {fromSlice : List UInt8 → Except String (List (String × JsonValue))}
  {secret : Codec JsonValue String}

/-- What `ui.toml` holds is written as something that is read. -/
theorem exists_decode_encode (hsecret : ∀ v, ∃ v', secret.fromValue (secret.toValue v) = .ok v')
    (k : UiKey) (v : Option k.Value) :
    ∃ v', k.decode (serde fromSlice secret) (k.encode (serde fromSlice secret) v) = .ok v' := by
  unfold UiKey.decode
  split
  · exact ⟨none, rfl⟩
  rename_i hnull
  cases v with
  | none => exact absurd rfl hnull
  | some v =>
    have hread {w : k.Value} (h : (k.codec (serde fromSlice secret)).fromValue
        ((k.codec (serde fromSlice secret)).toValue v) = .ok w) :
        ∃ v', ((k.codec (serde fromSlice secret)).fromValue
          (k.encode (serde fromSlice secret) (some v))).map some = .ok v' :=
      ⟨some w, congrArg (Except.map some) h⟩
    cases k with
    | devices => exact hread (mapM_map_eq_ok ofDevice_fromValue v)
    | apiKey | token =>
      obtain ⟨w, hw⟩ := hsecret v
      exact hread hw
    | forwardHost | forwardDatabase | logLevel | forwardEnable | ingestEnable => exact hread rfl
    | forwardPort | ingestPort => exact hread (unsigned_fromValue v.toNat_lt)
    | batchSize | queueSize | cacheMaxMb => exact hread (unsigned_fromValue v.toNat_lt)
    | queueFlushPct => exact hread (unsigned_fromValue v.toNat_lt)
    | flushInterval =>
      -- A float that is no number is written as `null`, which is read as no value.
      cases v with
      | finite v => exact hread rfl
      | nan => exact absurd rfl hnull
      | infinite n => exact absurd rfl hnull

end JsonValue

/-- A document is read if each of its keys is. -/
theorem exists_fromValue {J : Type} {json : JsonLib J} {doc : Doc J}
    (h : ∀ k : UiKey, ∃ v, k.decode json (doc k) = .ok v) : ∃ ui, fromValue json doc = .ok ui := by
  have hkeys (ks : List UiKey) (ui : UiConfig) : ∃ ui', readKeys json doc ks ui = .ok ui' := by
    induction ks generalizing ui with
    | nil => exact ⟨ui, rfl⟩
    | cons k ks ih =>
      obtain ⟨v, hv⟩ := h k
      obtain ⟨ui', hui'⟩ := ih (UiKey.set ui k v)
      refine ⟨ui', ?_⟩
      rw [readKeys, hv]
      exact hui'
  exact hkeys _ _

/-! ### The form as it is filled -/

/-- A device as the form has it. -/
def Form.DeviceDraft.ofDevice (d : Device) : DeviceDraft where
  interface := d.interface
  fd := d.fd
  database := d.database

/-- The listed devices. -/
def Settings.drafts (s : Settings) : List DeviceDraft := s.devices.map DeviceDraft.ofDevice

/-- A text with nothing for `trim` to take. -/
def Trimmed (text : String) : Prop := Js.trim text = text

instance (text : String) : Decidable (Trimmed text) := inferInstanceAs (Decidable (_ = _))

/-- The text the form shows for a setting that is one. -/
def shownFor (cli : Cli) (file : Option FileConfig) (ui : UiConfig) : UiKey → String
  | .forwardHost => (file.bind (·.forward.host)).getD (ui.beneath cli).forwardHost
  | .forwardDatabase => (file.bind (·.forward.database)).getD (ui.beneath cli).forwardDatabase
  | _ => ""

theorem draftOf_eq (js : JsLib) (settings : List FormSetting) {field : Field}
    (h : field ∈ fields) : draftOf js settings field.key = filled js settings field := by
  fin_cases h <;> rfl

section Filled

variable {js : JsLib} {fromSlice : List UInt8 → Except String (List (String × JsonValue))}
  {secret : Codec JsonValue String} {cli : Cli} {file : Option FileConfig} {ui : UiConfig}
  {env : Env} {s : Settings}

theorem setting_eq (k : UiKey) :
    setting (formSettings fromSlice secret cli file ui env s) k =
      some
        { key := k
          pinned := (sourceOf cli file ui env k).pinned
          value := if k.secret then none else some (listedValue (JsonValue.serde fromSlice secret)
            shownDevices (ui.beneath cli) file s k) } := by
  cases k <;> rfl

theorem devicesOf_eq :
    devicesOf (formSettings fromSlice secret cli file ui env s) = s.drafts := by
  have hvalue :
      (setting (formSettings fromSlice secret cli file ui env s) .devices).bind (·.value) =
        some (shownDevices (s.devices.map Device.listed)) := rfl
  rw [devicesOf, hvalue, shownDevices]
  simp only [List.map_map]
  rfl

/-- What an emptied text is sent as. -/
def orNull (text : String) : JsonValue := if text = "" then .null else .string text

/-- What a field that was not edited sends. -/
def resent (cli : Cli) (file : Option FileConfig) (ui : UiConfig) (env : Env) (field : Field) :
    Option JsonValue :=
  if field.kind = .text ∧ (sourceOf cli file ui env field.key).pinned = false ∧
      ¬ Trimmed (shownFor cli file ui field.key) then
    some (orNull (Js.trim (shownFor cli file ui field.key)))
  else none

theorem trimmed_empty : Trimmed "" := by decide

theorem trimmed_level (level : LogLevel) : Trimmed level.asStr := by
  cases level <;> decide +kernel

/-- A field that holds what it was filled with sends nothing, but a text that is not trimmed. -/
theorem sent_filled {settings : List FormSetting} {draft : Draft} {field : Field}
    {now : FormSetting} (hdraft : draft field.key = filled js settings field)
    (hnow : setting settings field.key = some now)
    (hplain : field.kind = .whole ∨ field.kind = .number ∨ field.kind = .level →
      Trimmed (Js.shown js now.value)) :
    sent js draft [] field now = .ok
      (if field.kind = .text ∧ ¬ Trimmed (Js.shown js now.value) then
        some (orNull (Js.trim (Js.shown js now.value))) else none) := by
  unfold filled at hdraft
  rw [hnow] at hdraft
  dsimp only [Option.bind_some] at hdraft
  unfold sent
  rw [hdraft]
  cases hkind : field.kind with
  | flag => simp
  | secret =>
    -- The field is empty whatever the secret is, and an empty one is not sent.
    have hempty : Js.trim "" = "" := trimmed_empty
    simp [Typed.shown, hempty]
  | text =>
    by_cases htrim : Trimmed (Js.shown js now.value)
    · have heq : Js.trim (Js.shown js now.value) = Js.shown js now.value := htrim
      simp [Typed.shown, heq, htrim]
    · have hne : Js.trim (Js.shown js now.value) ≠ Js.shown js now.value := htrim
      simp only [Typed.shown, hne, decide_false, htrim]
      by_cases hempty : Js.trim (Js.shown js now.value) = "" <;> simp [orNull, hempty]
  | level | whole | number =>
    have heq : Js.trim (Js.shown js now.value) = Js.shown js now.value := hplain (by simp [hkind])
    simp [Typed.shown, heq]

/-- The keys whose values are numbers. -/
def numbers : List UiKey :=
  [.forwardPort, .batchSize, .flushInterval, .queueSize, .cacheMaxMb, .queueFlushPct, .ingestPort]

theorem key_of_kind : ∀ field ∈ fields,
    (field.kind = .text → field.key = .forwardHost ∨ field.key = .forwardDatabase) ∧
    (field.kind = .whole ∨ field.kind = .number ∨ field.kind = .level →
      field.key ∈ numbers ∨ field.key = .logLevel) ∧
    (field.key.secret = true → field.kind = .secret) := by
  decide

theorem shown_text {k : UiKey} (hk : k = .forwardHost ∨ k = .forwardDatabase) :
    Js.shown js (some (listedValue (JsonValue.serde fromSlice secret) shownDevices (ui.beneath cli)
      file s k)) = shownFor cli file ui k := by
  have htext (inFile : Option String) (v : String) :
      Js.shown js (some (UiKey.encode (JsonValue.serde fromSlice secret) .forwardHost
        (inFile.or (some v)))) = inFile.getD v := by
    cases inFile <;> rfl
  rcases hk with rfl | rfl
  · exact htext (file.bind (·.forward.host)) _
  · exact htext (file.bind (·.forward.database)) _

/-- A number's text is trimmed. -/
theorem trimmed_number (hjs : ∀ v, Trimmed (js.numberText v)) {k : UiKey} (hk : k ∈ numbers)
    (v : Option k.Value) :
    Trimmed (Js.shown js (some (k.encode (JsonValue.serde fromSlice secret) v))) := by
  cases v with
  | none => exact trimmed_empty
  | some v =>
    cases k with
    | flushInterval =>
      cases v with
      | finite v => exact hjs v
      | nan => exact trimmed_empty
      | infinite n => exact trimmed_empty
    | forwardPort | batchSize | queueSize | cacheMaxMb | queueFlushPct | ingestPort => exact hjs _
    | _ => simp [numbers] at hk

theorem trimmed_shown (hjs : ∀ v, Trimmed (js.numberText v)) {k : UiKey}
    (hk : k ∈ numbers ∨ k = .logLevel) :
    Trimmed (Js.shown js (some (listedValue (JsonValue.serde fromSlice secret) shownDevices
      (ui.beneath cli) file s k))) := by
  rcases hk with hk | rfl
  · have hvalue :
        listedValue (JsonValue.serde fromSlice secret) shownDevices (ui.beneath cli) file s k =
        k.encode (JsonValue.serde fromSlice secret)
          ((file.bind (UiKey.fileValue · k)).or (UiKey.flagValue (ui.beneath cli) k)) := by
      cases k <;> first | exact absurd hk (by decide) | rfl
    rw [hvalue]
    exact trimmed_number hjs hk _
  · exact trimmed_level _

theorem fieldChange_filled (hjs : ∀ v, Trimmed (js.numberText v)) {field : Field}
    (h : field ∈ fields) :
    fieldChange js (formSettings fromSlice secret cli file ui env s)
      (draftOf js (formSettings fromSlice secret cli file ui env s)) [] field =
      .ok (resent cli file ui env field) := by
  have hdraft := draftOf_eq js (formSettings fromSlice secret cli file ui env s) h
  have hnow : setting (formSettings fromSlice secret cli file ui env s) field.key = _ :=
    setting_eq field.key
  obtain ⟨htext, hplain, hsecret⟩ := key_of_kind field h
  rw [fieldChange, hnow]
  dsimp only
  unfold resent
  by_cases hpinned : (sourceOf cli file ui env field.key).pinned = true
  · simp [hpinned]
  rw [if_neg hpinned, sent_filled hdraft hnow]
  · by_cases hkind : field.kind = .text
    · have hshown : field.key.secret = false := by
        cases hs : field.key.secret with
        | false => rfl
        | true => cases hkind.symm.trans (hsecret hs)
      simp only [hshown, Bool.false_eq_true, if_false, shown_text (htext hkind)]
      simp [hkind, hpinned]
    · simp [hkind]
  · intro hkind
    have hshown : field.key.secret = false := by
      cases hs : field.key.secret with
      | false => rfl
      | true => simp [hsecret hs] at hkind
    simp only [hshown, Bool.false_eq_true, if_false]
    exact trimmed_shown hjs (hplain hkind)

/-- What the fields of a form that was not edited send. -/
theorem fieldChanges_filled (hjs : ∀ v, Trimmed (js.numberText v)) :
    fieldChanges js (formSettings fromSlice secret cli file ui env s)
      (draftOf js (formSettings fromSlice secret cli file ui env s)) [] fields =
      .ok (fields.filterMap fun field => (resent cli file ui env field).map (field.key, ·)) := by
  have hsub {rest : List Field} (hrest : ∀ field ∈ rest, field ∈ fields) :
      fieldChanges js (formSettings fromSlice secret cli file ui env s)
        (draftOf js (formSettings fromSlice secret cli file ui env s)) [] rest =
        .ok (rest.filterMap fun field => (resent cli file ui env field).map (field.key, ·)) := by
    induction rest with
    | nil => rfl
    | cons field rest ih =>
      obtain ⟨hfield, hrest⟩ := List.forall_mem_cons.mp hrest
      rw [fieldChanges, fieldChange_filled hjs hfield, ih hrest, List.filterMap_cons]
      cases resent cli file ui env field <;> rfl
  exact hsub fun _ h => h

end Filled

/-! ### What is sent -/

section Sent

variable {js : JsLib} {settings : List FormSetting} {draft : Draft} {removing : List UiKey}

theorem keys_of_fieldChanges {rest : List Field} {body : List (UiKey × JsonValue)}
    (h : fieldChanges js settings draft removing rest = .ok body) :
    (body.map (·.1)).Sublist (rest.map (·.key)) := by
  induction rest generalizing body with
  | nil =>
    obtain rfl := Except.ok.inj h
    exact .slnil
  | cons field rest ih =>
    obtain ⟨change, -, h⟩ := bind_ok h
    obtain ⟨more, hmore, h⟩ := bind_ok h
    obtain rfl := Except.ok.inj h
    cases change with
    | none => exact (ih hmore).cons _
    | some v => exact (ih hmore).cons_cons _

theorem nodup_fields : (fields.map (·.key)).Nodup ∧ .devices ∉ fields.map (·.key) := by decide

/-- The devices as they are sent. -/
def sentList (devices : List DeviceDraft) : JsonValue :=
  .array ((devices.map DeviceDraft.trimmed).map DeviceDraft.toJson)

/-- The interfaces' names are no ones the form takes. -/
def Refused (next : List DeviceDraft) : Prop :=
  "" ∈ next.map (·.interface) ∨ ¬ (next.map (·.interface)).Nodup

/-- The devices are sent if they are not the listed ones and their names can be taken. -/
theorem devicesSent_cases (settings : List FormSetting) (devices : List DeviceDraft) :
    (devices.map DeviceDraft.trimmed = devicesOf settings ∧ devicesSent settings devices = .ok []) ∨
    (devices.map DeviceDraft.trimmed ≠ devicesOf settings ∧
      ((Refused (devices.map DeviceDraft.trimmed) ∧
          ∃ why, devicesSent settings devices = .error why) ∨
        (¬ Refused (devices.map DeviceDraft.trimmed) ∧
          devicesSent settings devices = .ok [(.devices, sentList devices)]))) := by
  unfold devicesSent sentList
  generalize devices.map DeviceDraft.trimmed = next
  dsimp only
  by_cases hsame : next = devicesOf settings
  · exact .inl ⟨hsame, if_pos hsame⟩
  rw [if_neg hsame]
  refine .inr ⟨hsame, ?_⟩
  by_cases hempty : "" ∈ next.map (·.interface)
  · exact .inl ⟨.inl hempty, _, if_pos hempty⟩
  rw [if_neg hempty]
  -- The set of the names is smaller than the list exactly if one comes twice.
  have htwice : (next.map (·.interface)).dedup.length < (next.map (·.interface)).length ↔
      ¬ (next.map (·.interface)).Nodup := by
    rw [← List.dedup_eq_self]
    have hsub := List.dedup_sublist (next.map (·.interface))
    constructor
    · intro hlt heq
      rw [heq] at hlt
      exact Nat.lt_irrefl _ hlt
    · intro hne
      exact Nat.lt_of_le_of_ne hsub.length_le fun hlength => hne (hsub.eq_of_length hlength)
  by_cases hnodup : (next.map (·.interface)).Nodup
  · rw [if_neg (mt htwice.mp (not_not.mpr hnodup))]
    exact .inr ⟨fun h => h.elim hempty fun h => h hnodup, rfl⟩
  · rw [if_pos (htwice.mpr hnodup)]
    exact .inl ⟨.inr hnodup, _, rfl⟩

theorem changes_eq_ok {devices : List DeviceDraft} {body : List (UiKey × JsonValue)}
    (h : changes js settings draft removing devices = .ok body) :
    ∃ texts listed, fieldChanges js settings draft removing fields = .ok texts ∧
      devicesChange settings devices = .ok listed ∧ body = texts ++ listed := by
  obtain ⟨texts, htexts, h⟩ := bind_ok h
  obtain ⟨listed, hlisted, h⟩ := bind_ok h
  exact ⟨texts, listed, htexts, hlisted, (Except.ok.inj h).symm⟩

end Sent

/-! ### What `merge` makes of it -/

/-- The device a draft is stored as. -/
def Form.DeviceDraft.stored (d : DeviceDraft) : UiDevice where
  interface := Js.trim d.interface
  fd := some d.fd
  database := if Js.trim d.database = "" then none else some (Js.trim d.database)

theorem ofDevice_toJson (d : DeviceDraft) :
    JsonValue.ofDevice.fromValue d.trimmed.toJson = .ok d.stored := by
  unfold DeviceDraft.toJson DeviceDraft.stored DeviceDraft.trimmed
  dsimp only
  split <;> rfl

section Merge

variable {js : JsLib} {fromSlice : List UInt8 → Except String (List (String × JsonValue))}
  {secret : Codec JsonValue String} {ui merged : UiConfig} {texts : List (UiKey × JsonValue)}
  {listed : List (UiKey × JsonValue)}

/-- A body's keys come once, the devices last. -/
theorem nodup_body (htexts : (texts.map (·.1)).Sublist (fields.map (·.key)))
    (hlisted : (listed.map (·.1)).Sublist [.devices]) :
    ((texts ++ listed).map (·.1)).Nodup := by
  rw [List.map_append]
  have hdevices : (listed.map (·.1)).Nodup := (List.nodup_singleton _).sublist hlisted
  refine List.Nodup.append (nodup_fields.1.sublist htexts) hdevices ?_
  intro k hk hk'
  obtain rfl := List.mem_singleton.mp (hlisted.subset hk')
  exact nodup_fields.2 (htexts.subset hk)

/-- The devices that are merged are the ones sent, else the stored ones. -/
theorem devices_of_merge (htexts : (texts.map (·.1)).Sublist (fields.map (·.key)))
    (hlisted : (listed.map (·.1)).Sublist [.devices])
    (h : merge (JsonValue.serde fromSlice secret) ui (texts ++ listed) = .ok merged) :
    UiKey.decode (JsonValue.serde fromSlice secret) .devices
      ((listed.lookup .devices).getD (toValue (JsonValue.serde fromSlice secret) ui .devices)) =
        .ok merged.devices := by
  have hget := get_of_fromValue h .devices
  have hnone : texts.lookup .devices = none := by
    rw [List.lookup_eq_none_iff]
    intro kv hkv
    have hmem : kv.1 ∈ fields.map (·.key) := htexts.subset (List.mem_map_of_mem hkv)
    have hne : kv.1 ≠ .devices := fun heq => nodup_fields.2 (heq ▸ hmem)
    simpa using hne.symm
  rw [foldl_update (nodup_body htexts hlisted), List.lookup_append, hnone, Option.none_or] at hget
  exact hget

end Merge

/-! ### The listed devices -/

/-- A stored device as the form has it. -/
def Form.DeviceDraft.ofUi (s : Settings) (u : UiDevice) : DeviceDraft where
  interface := u.interface
  fd := u.fd.getD s.canFd
  database := u.database.getD s.defaultDatabase

/-- A stored device the form has as it is stored: `fd` and the database are named, or there is no
default database to name. -/
structure Settled (s : Settings) (u : UiDevice) : Prop where
  interface : Trimmed u.interface
  fd : u.fd.isSome = true
  database : match u.database with
    | some database => database ≠ "" ∧ Trimmed database
    | none => Js.trim s.defaultDatabase = ""

theorem stored_ofUi_iff (s : Settings) (u : UiDevice) :
    (DeviceDraft.ofUi s u).stored = u ↔ Settled s u := by
  obtain ⟨interface, fd, database⟩ := u
  have hdatabase : (if Js.trim (database.getD s.defaultDatabase) = "" then none
      else some (Js.trim (database.getD s.defaultDatabase))) = database ↔
      match database with
      | some database => database ≠ "" ∧ Trimmed database
      | none => Js.trim s.defaultDatabase = "" := by
    cases database with
    | none => simp
    | some database =>
      by_cases hempty : Js.trim database = ""
      · simp only [Option.getD_some, hempty, if_true, reduceCtorEq, false_iff, Trimmed]
        rintro ⟨hne, htrim⟩
        exact hne htrim.symm
      · simp only [Option.getD_some, hempty, if_false, Option.some.injEq, Trimmed]
        constructor
        · intro htrim
          exact ⟨fun hnil => hempty (htrim.trans hnil), htrim⟩
        · exact And.right
  have hfd : some (fd.getD s.canFd) = fd ↔ fd.isSome = true := by
    cases fd <;> simp
  constructor
  · intro h
    obtain ⟨h₁, h₂, h₃⟩ := UiDevice.mk.inj h
    exact ⟨h₁, hfd.mp h₂, hdatabase.mp h₃⟩
  · rintro ⟨h₁, h₂, h₃⟩
    exact UiDevice.mk.injEq .. ▸ ⟨h₁, hfd.mpr h₂, hdatabase.mpr h₃⟩

theorem drafts_of_has {s : Settings} {us : List UiDevice} (h : s.Has .devices us) :
    s.drafts = us.map (DeviceDraft.ofUi s) := by
  have hone {u : UiDevice} {d : Device} (h : u.Is s d) :
      DeviceDraft.ofDevice d = DeviceDraft.ofUi s u := by
    simp [DeviceDraft.ofDevice, DeviceDraft.ofUi, Device.fd, h.interface, h.database, h.kind]
  have hall : ∀ {us : List UiDevice} {ds : List Device}, List.Forall₂ (UiDevice.Is s) us ds →
      ds.map DeviceDraft.ofDevice = us.map (DeviceDraft.ofUi s) := by
    intro us ds h
    induction h with
    | nil => rfl
    | cons h _ ih => rw [List.map_cons, List.map_cons, hone h, ih]
  exact hall h

/-! ### The theorem -/

/-- What is changed of the stored devices, whatever else the form holds, is at most where the edit
is. -/
def LeavesOthers (js : JsLib) (json : JsonLib JsonValue) (settings : List FormSetting)
    (ui : UiConfig) (ds : List UiDevice) (e : Edit DeviceDraft) : Prop :=
  ∀ draft removing body merged,
    changes js settings draft removing (e.apply (devicesOf settings)) = .ok body →
    merge json ui body = .ok merged →
      ∃ ds', merged.devices = some ds' ∧ (ds' = ds ∨ e.KeepsOthers ds ds')

/-- The devices are left out of what is sent: they are pinned, or the listed ones. -/
def LeftOut (cli : Cli) (file : Option FileConfig) (ui : UiConfig) (env : Env) (s : Settings)
    (devices : List DeviceDraft) : Prop :=
  (sourceOf cli file ui env .devices).pinned = true ∨
    devices.map DeviceDraft.trimmed = s.drafts

section Theorem

variable {js : JsLib} {fromSlice : List UInt8 → Except String (List (String × JsonValue))}
  {secret : Codec JsonValue String} {cli : Cli} {file : Option FileConfig} {ui : UiConfig}
  {env : Env} {s : Settings}

variable (fromSlice secret cli file ui env s) in
theorem devicesChange_cases (devices : List DeviceDraft) :
    (LeftOut cli file ui env s devices ∧
      devicesChange (formSettings fromSlice secret cli file ui env s) devices = .ok []) ∨
    (¬ LeftOut cli file ui env s devices ∧
      ((Refused (devices.map DeviceDraft.trimmed) ∧ ∃ why,
          devicesChange (formSettings fromSlice secret cli file ui env s) devices = .error why) ∨
        (¬ Refused (devices.map DeviceDraft.trimmed) ∧
          devicesChange (formSettings fromSlice secret cli file ui env s) devices =
            .ok [(.devices, sentList devices)]))) := by
  have hcases := devicesSent_cases (formSettings fromSlice secret cli file ui env s) devices
  rw [devicesOf_eq] at hcases
  unfold devicesChange LeftOut
  rw [setting_eq]
  dsimp only
  by_cases hpinned : (sourceOf cli file ui env .devices).pinned = true
  · exact .inl ⟨.inl hpinned, if_pos hpinned⟩
  rw [if_neg hpinned]
  rcases hcases with ⟨hsame, hsent⟩ | ⟨hne, hsent⟩
  · exact .inl ⟨.inr hsame, hsent⟩
  · exact .inr ⟨fun h => h.elim hpinned hne, hsent⟩

theorem keys_of_devicesChange {devices : List DeviceDraft} {listed : List (UiKey × JsonValue)}
    (h : devicesChange (formSettings fromSlice secret cli file ui env s) devices = .ok listed) :
    (listed.map (·.1)).Sublist [.devices] := by
  rcases devicesChange_cases fromSlice secret cli file ui env s devices with
    ⟨-, hsent⟩ | ⟨-, ⟨-, why, hsent⟩ | ⟨-, hsent⟩⟩
  all_goals cases hsent.symm.trans h
  · exact List.nil_sublist _
  · exact List.Sublist.refl _

theorem decode_orNull {k : UiKey} (hk : k = .forwardHost ∨ k = .forwardDatabase) (text : String) :
    ∃ v, k.decode (JsonValue.serde fromSlice secret) (orNull text) = .ok v := by
  unfold orNull
  rcases hk with rfl | rfl
  all_goals
    split
    · exact ⟨none, rfl⟩
    · exact ⟨some text, rfl⟩

theorem decode_stored {ds : List UiDevice} (hds : ui.devices = some ds) :
    UiKey.decode (JsonValue.serde fromSlice secret) .devices
      (toValue (JsonValue.serde fromSlice secret) ui .devices) = .ok (some ds) := by
  have hget : UiKey.get ui .devices = some ds := hds
  have hread := mapM_map_eq_ok JsonValue.ofDevice_fromValue ds
  rw [List.map_id'] at hread
  rw [toValue, hget]
  exact congrArg (Except.map some) hread

theorem decode_sent (devices : List DeviceDraft) :
    UiKey.decode (JsonValue.serde fromSlice secret) .devices (sentList devices) =
      .ok (some (devices.map DeviceDraft.stored)) := by
  have hread : ((devices.map DeviceDraft.trimmed).map DeviceDraft.toJson).mapM
      JsonValue.ofDevice.fromValue = .ok (devices.map DeviceDraft.stored) := by
    rw [List.map_map]
    exact mapM_map_eq_ok ofDevice_toJson devices
  exact congrArg (Except.map some) hread

/-- `merge` reads what the fields of a form that was not edited send. -/
theorem exists_decode_text {kv : UiKey × JsonValue}
    (h : kv ∈ fields.filterMap fun field => (resent cli file ui env field).map (field.key, ·)) :
    ∃ v, kv.1.decode (JsonValue.serde fromSlice secret) kv.2 = .ok v := by
  obtain ⟨field, hfield, hresent⟩ := List.mem_filterMap.mp h
  obtain ⟨v, hv, rfl⟩ := Option.map_eq_some_iff.mp hresent
  unfold resent at hv
  split at hv
  · rename_i hkind
    obtain rfl := Option.some.inj hv
    have hkey := (key_of_kind field hfield).1 hkind.1
    dsimp only
    exact decode_orNull hkey (Js.trim (shownFor cli file ui field.key))
  · cases hv

/-- And what the devices do. -/
theorem exists_decode_listed {devices : List DeviceDraft} {listed : List (UiKey × JsonValue)}
    (h : devicesChange (formSettings fromSlice secret cli file ui env s) devices = .ok listed)
    {kv : UiKey × JsonValue} (hkv : kv ∈ listed) :
    ∃ v, kv.1.decode (JsonValue.serde fromSlice secret) kv.2 = .ok v := by
  rcases devicesChange_cases fromSlice secret cli file ui env s devices with
    ⟨-, hsent⟩ | ⟨-, ⟨-, why, hsent⟩ | ⟨-, hsent⟩⟩
  all_goals cases hsent.symm.trans h
  · cases hkv
  · obtain rfl := List.mem_singleton.mp hkv
    exact ⟨some (devices.map DeviceDraft.stored), decode_sent devices⟩

/-- `merge` takes what a form sends in which only the devices were edited. -/
theorem exists_merge (hsecret : ∀ v, ∃ v', secret.fromValue (secret.toValue v) = .ok v')
    (hjs : ∀ v, Trimmed (js.numberText v)) {devices : List DeviceDraft}
    {body : List (UiKey × JsonValue)}
    (h : changes js (formSettings fromSlice secret cli file ui env s)
      (draftOf js (formSettings fromSlice secret cli file ui env s)) [] devices = .ok body) :
    ∃ merged, merge (JsonValue.serde fromSlice secret) ui body = .ok merged := by
  obtain ⟨texts, listed, htexts, hlisted, rfl⟩ := changes_eq_ok h
  apply exists_fromValue
  intro k
  rw [foldl_update (nodup_body (keys_of_fieldChanges htexts) (keys_of_devicesChange hlisted))]
  cases hlookup : (texts ++ listed).lookup k with
  | none =>
    rw [Option.getD_none, toValue]
    exact JsonValue.exists_decode_encode hsecret k (UiKey.get ui k)
  | some v =>
    obtain ⟨before, after, hbody, -⟩ := List.lookup_eq_some_iff.mp hlookup
    have hmem : (k, v) ∈ texts ++ listed := by
      rw [hbody]
      exact List.mem_append_right _ List.mem_cons_self
    rw [Option.getD_some]
    rcases List.mem_append.mp hmem with hmem | hmem
    · rw [fieldChanges_filled hjs] at htexts
      obtain rfl := Except.ok.inj htexts
      exact exists_decode_text hmem
    · exact exists_decode_listed hlisted hmem

theorem changes_filled (hjs : ∀ v, Trimmed (js.numberText v)) {devices : List DeviceDraft}
    {listed : List (UiKey × JsonValue)}
    (h : devicesChange (formSettings fromSlice secret cli file ui env s) devices = .ok listed) :
    changes js (formSettings fromSlice secret cli file ui env s)
      (draftOf js (formSettings fromSlice secret cli file ui env s)) [] devices =
      .ok (fields.filterMap (fun field => (resent cli file ui env field).map (field.key, ·)) ++
        listed) := by
  rw [changes, fieldChanges_filled hjs, h]
  rfl

/-- The stored devices that the form may change are the listed ones. -/
theorem has_of_free {lib : SettingsLib} (hcli : cli.Parsed)
    (hlayers : Settings.OfLayers lib (ui.beneath cli) file (some ui) env s)
    (hfree : (sourceOf cli file ui env .devices).pinned = false) {ds : List UiDevice}
    (hds : ui.devices = some ds) : s.Has .devices ds := by
  have hused := (Settings.highestUsed_devices hcli hlayers).1
  rw [Settings.sourceOf_of_free (k := .devices) nofun nofun hfree hds] at hused
  obtain ⟨ds', hds', hhas⟩ := hused
  obtain rfl := Option.some.inj (hds'.symm.trans hds)
  exact hhas

theorem leavesOthers_iff {lib : SettingsLib}
    (hsecret : ∀ v, ∃ v', secret.fromValue (secret.toValue v) = .ok v')
    (hjs : ∀ v, Trimmed (js.numberText v)) (hcli : cli.Parsed)
    (hlayers : Settings.OfLayers lib (ui.beneath cli) file (some ui) env s) {ds : List UiDevice}
    (hds : ui.devices = some ds) (e : Edit DeviceDraft) :
    LeavesOthers js (JsonValue.serde fromSlice secret)
        (formSettings fromSlice secret cli file ui env s) ui ds e ↔
      LeftOut cli file ui env s (e.apply s.drafts) ∨
      Refused ((e.apply s.drafts).map DeviceDraft.trimmed) ∨
      ∀ u ∈ e.untouched ds, Settled s u := by
  unfold LeavesOthers
  rw [devicesOf_eq]
  rcases devicesChange_cases fromSlice secret cli file ui env s (e.apply s.drafts) with
    ⟨hout, hsent⟩ | ⟨hin, ⟨hrefused, why, hsent⟩ | ⟨hfine, hsent⟩⟩
  · -- The stored devices stay.
    refine iff_of_true ?_ (.inl hout)
    intro draft removing body merged hbody hmerge
    obtain ⟨texts, listed, htexts, hlisted, rfl⟩ := changes_eq_ok hbody
    have hdevices := devices_of_merge (keys_of_fieldChanges htexts) (keys_of_devicesChange hlisted)
      hmerge
    obtain rfl := Except.ok.inj (hsent.symm.trans hlisted)
    rw [List.lookup_nil, Option.getD_none, decode_stored hds] at hdevices
    exact ⟨ds, (Except.ok.inj hdevices).symm, .inl rfl⟩
  · -- Nothing is sent.
    refine iff_of_true ?_ (.inr (.inl hrefused))
    intro draft removing body merged hbody hmerge
    obtain ⟨texts, listed, htexts, hlisted, rfl⟩ := changes_eq_ok hbody
    cases hsent.symm.trans hlisted
  · rw [or_iff_right hin, or_iff_right hfine]
    have hfree : (sourceOf cli file ui env .devices).pinned = false := by
      simpa using fun hpinned => hin (.inl hpinned)
    have hdrafts := drafts_of_has (has_of_free hcli hlayers hfree hds)
    -- What is stored of the whole list is the edit of what is stored of each device.
    have hstored : (e.apply s.drafts).map DeviceDraft.stored =
        (e.map DeviceDraft.stored).apply (ds.map fun u => (DeviceDraft.ofUi s u).stored) := by
      rw [Edit.map_apply, hdrafts, List.map_map]
      rfl
    have hkeeps : e.KeepsOthers ds ((e.apply s.drafts).map DeviceDraft.stored) ↔
        ∀ u ∈ e.untouched ds, Settled s u := by
      rw [hstored, Edit.keepsOthers_map_iff]
      simp only [stored_ofUi_iff]
    have hmerged {draft : Draft} {removing : List UiKey} {body : List (UiKey × JsonValue)}
        {merged : UiConfig}
        (hbody : changes js (formSettings fromSlice secret cli file ui env s) draft removing
          (e.apply s.drafts) = .ok body)
        (hmerge : merge (JsonValue.serde fromSlice secret) ui body = .ok merged) :
        merged.devices = some ((e.apply s.drafts).map DeviceDraft.stored) := by
      obtain ⟨texts, listed, htexts, hlisted, rfl⟩ := changes_eq_ok hbody
      have hdevices := devices_of_merge (keys_of_fieldChanges htexts)
        (keys_of_devicesChange hlisted) hmerge
      obtain rfl := Except.ok.inj (hsent.symm.trans hlisted)
      rw [List.lookup_cons_self, Option.getD_some, decode_sent] at hdevices
      exact (Except.ok.inj hdevices).symm
    constructor
    · intro h
      -- The form with nothing else edited sends a body, and `merge` takes it.
      have hbody := changes_filled hjs hsent
      obtain ⟨merged, hmerge⟩ := exists_merge hsecret hjs hbody
      obtain ⟨ds', hds', hkept⟩ := h _ _ _ _ hbody hmerge
      obtain rfl := Option.some.inj ((hmerged hbody hmerge).symm.trans hds')
      rw [← hkeeps]
      rcases hkept with hsame | hkept
      · -- A list that is what it was has no device added or removed.
        have hlength := congrArg List.length hsame
        rw [List.length_map] at hlength
        rw [hsame]
        refine Edit.keepsOthers_self DeviceDraft.stored s.drafts ?_ ?_
        · rw [hdrafts, List.length_map]
        · rw [hlength, hdrafts, List.length_map]
      · exact hkept
    · intro h draft removing body merged hbody hmerge
      exact ⟨_, hmerged hbody hmerge, .inr (hkeeps.mpr h)⟩

theorem resent_eq_none_iff {field : Field} :
    resent cli file ui env field = none ↔ (field.kind = .text →
      (sourceOf cli file ui env field.key).pinned = false →
        Trimmed (shownFor cli file ui field.key)) := by
  unfold resent
  split
  · rename_i h
    refine iff_of_false nofun fun hall => ?_
    exact h.2.2 (hall h.1 h.2.1)
  · rename_i h
    refine iff_of_true rfl fun hkind hfree => ?_
    by_contra htrim
    exact h ⟨hkind, hfree, htrim⟩

/-- The fields of a form that was not edited send nothing if its texts are trimmed. -/
theorem texts_eq_nil_iff :
    fields.filterMap (fun field => (resent cli file ui env field).map (field.key, ·)) = [] ↔
      ∀ k ∈ [UiKey.forwardHost, .forwardDatabase],
        (sourceOf cli file ui env k).pinned = false → Trimmed (shownFor cli file ui k) := by
  rw [List.filterMap_eq_nil_iff]
  simp only [Option.map_eq_none_iff, resent_eq_none_iff]
  constructor
  · intro h k hk
    have hfield : ∃ field ∈ fields, field.kind = .text ∧ field.key = k := by
      revert k
      decide
    obtain ⟨field, hfield, hkind, rfl⟩ := hfield
    exact h field hfield hkind
  · intro h field hfield hkind
    refine h field.key ?_
    rcases (key_of_kind field hfield).1 hkind with hkey | hkey <;> simp [hkey]

/-- The listed devices are left out if their texts are trimmed. -/
theorem leftOut_listed_iff :
    LeftOut cli file ui env s s.drafts ↔
      ((sourceOf cli file ui env .devices).pinned = false →
        ∀ d ∈ s.devices, Trimmed d.interface ∧ Trimmed d.database) := by
  have htrimmed (d : Device) : (DeviceDraft.ofDevice d).trimmed = DeviceDraft.ofDevice d ↔
      Trimmed d.interface ∧ Trimmed d.database := by
    simp [DeviceDraft.ofDevice, DeviceDraft.trimmed, Trimmed]
  unfold LeftOut Settings.drafts
  rw [map_eq_self_iff, List.forall_mem_map]
  simp only [htrimmed]
  cases (sourceOf cli file ui env .devices).pinned <;> simp

theorem unedited_iff (hjs : ∀ v, Trimmed (js.numberText v)) :
    changes js (formSettings fromSlice secret cli file ui env s)
        (draftOf js (formSettings fromSlice secret cli file ui env s)) []
        (devicesOf (formSettings fromSlice secret cli file ui env s)) = .ok [] ↔
      (∀ k ∈ [UiKey.forwardHost, .forwardDatabase],
        (sourceOf cli file ui env k).pinned = false → Trimmed (shownFor cli file ui k)) ∧
      ((sourceOf cli file ui env .devices).pinned = false →
        ∀ d ∈ s.devices, Trimmed d.interface ∧ Trimmed d.database) := by
  rw [devicesOf_eq, ← texts_eq_nil_iff, ← leftOut_listed_iff]
  rcases devicesChange_cases fromSlice secret cli file ui env s s.drafts with
    ⟨hout, hsent⟩ | ⟨hin, ⟨-, why, hsent⟩ | ⟨-, hsent⟩⟩
  · rw [changes_filled hjs hsent, and_iff_left hout, List.append_nil]
    rw [Except.ok.injEq]
  · refine iff_of_false (fun h => ?_) fun h => hin h.2
    obtain ⟨texts, listed, -, hlisted, -⟩ := changes_eq_ok h
    cases hsent.symm.trans hlisted
  · refine iff_of_false (fun h => ?_) fun h => hin h.2
    rw [changes_filled hjs hsent] at h
    exact List.append_ne_nil_of_right_ne_nil _ (List.cons_ne_nil _ _) (Except.ok.inj h)

end Theorem

/-- An edit of one device leaves the others as they are stored exactly if nothing of the list is
sent, or the form has each of them as it is stored.  `merge` takes what is sent for the devices, and
a form that was not edited sends nothing exactly if what it shows is trimmed. -/
theorem edit_leaves_others_iff (js : JsLib)
    (fromSlice : List UInt8 → Except String (List (String × JsonValue)))
    (secret : Codec JsonValue String)
    (hsecret : ∀ v, ∃ v', secret.fromValue (secret.toValue v) = .ok v')
    (hjs : ∀ v, Trimmed (js.numberText v)) (cli : Cli) (file : Option FileConfig) (ui : UiConfig)
    (env : Env) :
    (∀ lib r ds, cli.Parsed → Settings.resolve lib cli file (some ui) env = .ok r →
      ui.devices = some ds → ∀ e : Edit DeviceDraft,
        LeavesOthers js (JsonValue.serde fromSlice secret)
            (formSettings fromSlice secret cli file ui env r.settings) ui ds e ↔
          LeftOut cli file ui env r.settings
            (e.apply r.settings.drafts) ∨
          Refused ((e.apply r.settings.drafts).map DeviceDraft.trimmed) ∨
          ∀ u ∈ e.untouched ds, Settled r.settings u) ∧
    ∀ s,
      (∀ devices body,
        changes js (formSettings fromSlice secret cli file ui env s)
          (draftOf js (formSettings fromSlice secret cli file ui env s)) [] devices = .ok body →
        ∃ merged, merge (JsonValue.serde fromSlice secret) ui body = .ok merged) ∧
      (changes js (formSettings fromSlice secret cli file ui env s)
          (draftOf js (formSettings fromSlice secret cli file ui env s)) []
          (devicesOf (formSettings fromSlice secret cli file ui env s)) = .ok [] ↔
        (∀ k ∈ [UiKey.forwardHost, .forwardDatabase],
          (sourceOf cli file ui env k).pinned = false → Trimmed (shownFor cli file ui k)) ∧
        ((sourceOf cli file ui env .devices).pinned = false →
          ∀ d ∈ s.devices, Trimmed d.interface ∧ Trimmed d.database)) := by
  refine ⟨?_, fun s => ⟨?_, unedited_iff hjs⟩⟩
  · intro lib r ds hcli h hds e
    exact leavesOthers_iff hsecret hjs hcli (Settings.ofLayers_of_resolve h) hds e
  · intro devices body hbody
    exact exists_merge hsecret hjs hbody

/-! ### Two devices -/

/-- Two devices on a gateway whose database is `site`, with these databases of their own. -/
def siteUi (database : Option String) : UiConfig :=
  { (default : UiConfig) with
    devices := some [⟨"can0", some false, database⟩, ⟨"can1", some false, database⟩]
    forward := { (default : UiForward) with enable := some true, database := some "site" } }

/-- The form on them, in a daemon with no file and no flags. -/
def siteForm (database : Option String) (s : Settings) : List FormSetting :=
  formSettings (fun _ => .ok []) JsonValue.ofString .defaults none (siteUi database) benchEnv s

def siteJson : JsonLib JsonValue := JsonValue.serde (fun _ => .ok []) JsonValue.ofString

/-- JavaScript's texts of the integers and of a half. -/
def plainJs : JsLib where
  numberText := fun v => if v = 1 / 2 then "0.5" else String.ofList (Nat.toDigits 10 v.num.natAbs)
  toNumber := fun _ => .nan

/-- CAN FD ticked for the second. -/
def tickFd : Edit DeviceDraft := .change 1 ⟨"can1", true, "site"⟩

theorem trimmed_of_forall {text : String} (h : ∀ c ∈ text.toList, Js.isBlank c = false) :
    Trimmed text := by
  have hfront : text.toList.dropWhile Js.isBlank = text.toList := by
    rw [List.dropWhile_eq_self_iff]
    intro hpos
    simp [h _ (List.getElem_mem hpos)]
  have hback : text.toList.rdropWhile Js.isBlank = text.toList := by
    rw [List.rdropWhile_eq_self_iff]
    intro hne
    simp [h _ (List.getLast_mem hne)]
  rw [Trimmed, Js.trim, hfront, hback, String.ofList_toList]

theorem plainJs_trimmed (v : Rat) : Trimmed (plainJs.numberText v) := by
  unfold plainJs
  dsimp only
  split
  · decide +kernel
  · apply trimmed_of_forall
    intro c hc
    rw [String.toList_ofList] at hc
    have hdigit : 48 ≤ c.toNat ∧ c.toNat ≤ 57 := by
      simpa [Char.isDigit, UInt32.le_iff_toNat_le] using isDigit_toDigits hc
    simp only [Js.isBlank, Bool.or_eq_false_iff, Bool.and_eq_false_iff, decide_eq_false_iff_not]
    omega

theorem defaults_parsed : Cli.defaults.Parsed where
  iface := rfl
  forwardEnable := rfl
  ingestEnable := rfl
  default := fun _ _ => rfl

/-- The first device is stored with the gateway's database, which it had left to the default. -/
theorem edit_freezes_database :
    ∃ r, Settings.resolve .bare .defaults none (some (siteUi none)) benchEnv = .ok r ∧
      ¬ LeavesOthers plainJs siteJson (siteForm none r.settings) (siteUi none)
        [⟨"can0", some false, none⟩, ⟨"can1", some false, none⟩] tickFd := by
  obtain ⟨r, hr⟩ : ∃ r,
      Settings.resolve .bare .defaults none (some (siteUi none)) benchEnv = .ok r := ⟨_, rfl⟩
  refine ⟨r, hr, ?_⟩
  rw [siteJson, siteForm, leavesOthers_iff (fun v => ⟨v, rfl⟩) plainJs_trimmed defaults_parsed
    (Settings.ofLayers_of_resolve hr) rfl]
  have hlisted : r.settings.drafts =
      [⟨"can0", false, "site"⟩, ⟨"can1", false, "site"⟩] := by
    obtain rfl := Except.ok.inj hr
    rfl
  have hdefault : r.settings.defaultDatabase = "site" := by
    obtain rfl := Except.ok.inj hr
    rfl
  rw [hlisted]
  rintro (hout | hrefused | hsettled)
  · rcases hout with hpinned | hsame
    · cases hpinned
    · rw [hlisted] at hsame
      exact absurd hsame (by decide +kernel)
  · rcases hrefused with hempty | htwice
    · exact absurd hempty (by decide +kernel)
    · exact htwice (by decide +kernel)
  · have hdatabase := (hsettled _ List.mem_cons_self).database
    rw [hdefault] at hdatabase
    exact absurd hdatabase (by decide +kernel)

/-- With both databases named the other device stays, and an unedited form sends nothing. -/
theorem edit_leaves_others_named :
    ∃ r, Settings.resolve .bare .defaults none (some (siteUi (some "site"))) benchEnv = .ok r ∧
      LeavesOthers plainJs siteJson (siteForm (some "site") r.settings) (siteUi (some "site"))
        [⟨"can0", some false, some "site"⟩, ⟨"can1", some false, some "site"⟩] tickFd ∧
      changes plainJs (siteForm (some "site") r.settings)
        (draftOf plainJs (siteForm (some "site") r.settings)) []
        (devicesOf (siteForm (some "site") r.settings)) = .ok [] := by
  obtain ⟨r, hr⟩ : ∃ r,
      Settings.resolve .bare .defaults none (some (siteUi (some "site"))) benchEnv = .ok r :=
    ⟨_, rfl⟩
  have h := edit_leaves_others_iff plainJs (fun _ => .ok []) JsonValue.ofString (fun v => ⟨v, rfl⟩)
    plainJs_trimmed .defaults none (siteUi (some "site")) benchEnv
  have hsettled : ∀ u ∈ tickFd.untouched
      [⟨"can0", some false, some "site"⟩, ⟨"can1", some false, some "site"⟩],
      Settled r.settings u := by
    intro u hu
    obtain rfl := List.mem_singleton.mp hu
    exact ⟨by decide +kernel, rfl, by decide, by decide +kernel⟩
  have htexts : ∀ k ∈ [UiKey.forwardHost, .forwardDatabase],
      Trimmed (shownFor .defaults none (siteUi (some "site")) k) := by
    decide +kernel
  have hdevices : ∀ d ∈ r.settings.devices, Trimmed d.interface ∧ Trimmed d.database := by
    obtain rfl := Except.ok.inj hr
    decide +kernel
  refine ⟨r, hr, (h.1 _ r _ defaults_parsed hr rfl tickFd).mpr (.inr (.inr hsettled)), ?_⟩
  exact (h.2 r.settings).2.mpr ⟨fun k hk _ => htexts k hk, fun _ => hdevices⟩

end WireTap.Daemon
