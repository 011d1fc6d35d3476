import StreamWatch.Proofs.Basic
import StreamWatch.Proofs.Settings.Overlay

/-!
# Settings files and settings, read one by one

A settings file names everything once, as the tree of settings has to. Where the replay is a table,
each of its settings is read from its own entry: `Setting.asReplay_eq_ok_iff`.
-/

namespace StreamWatch

/-! ## Sources name everything once -/

/-- An entry of a table is the one that was put in, or was there before. -/
theorem Table.mem_putIn {κ υ : Type} [DecidableEq κ] {key : κ} {value : υ}
    {entries : List (κ × υ)} {entry : κ × υ} (h : entry ∈ putIn key value entries) :
    entry = (key, value) ∨ entry ∈ entries := by
  induction entries with
  | nil => exact .inl (List.mem_singleton.mp h)
  | cons first rest ih =>
      unfold putIn at h
      split at h
      · exact (List.mem_cons.mp h).imp_right (List.mem_cons_of_mem _)
      · rcases List.mem_cons.mp h with rfl | h
        · exact .inr List.mem_cons_self
        · exact (ih h).imp_right (List.mem_cons_of_mem _)

namespace Setting

variable {source : SettingSource}

/-- A map of a settings file adds to the entries before it one name at a time. -/
theorem entriesOfYaml_cons {before after : SettingLayer} {key node : Yaml.Node}
    {rest : List (Yaml.Node × Yaml.Node)}
    (h : entriesOfYaml source before ((key, node) :: rest) = .ok after) :
    ∃ name setting, ofYaml source node = .ok setting ∧
      entriesOfYaml source (Table.putIn name setting before) rest = .ok after := by
  rw [entriesOfYaml] at h
  obtain ⟨name, -, h⟩ := bind_eq_ok_iff.mp h
  obtain ⟨setting, hsetting, h⟩ := bind_eq_ok_iff.mp h
  exact ⟨name, setting, hsetting, h⟩

/-- A map of a settings file gives each name one entry, the last one. -/
theorem nodup_entriesOfYaml {before after : SettingLayer} {nodes : List (Yaml.Node × Yaml.Node)}
    (hbefore : (before.map (·.1)).Nodup) (h : entriesOfYaml source before nodes = .ok after) :
    (after.map (·.1)).Nodup := by
  induction nodes generalizing before with
  | nil =>
      rw [entriesOfYaml] at h
      cases h
      exact hbefore
  | cons node rest ih =>
      obtain ⟨name, setting, -, h⟩ := entriesOfYaml_cons h
      exact ih (Table.nodup_keys_putIn name setting before hbefore) h

/-- What a part of a settings file stands for is a table only if the part is a map. -/
theorem exists_of_ofYaml_table {node : Yaml.Node} {entries : SettingLayer}
    {source? : Option SettingSource} (h : ofYaml source node = .ok (.table entries source?)) :
    ∃ nodes, entriesOfYaml source [] nodes = .ok entries := by
  cases node with
  | scalar value =>
      rw [ofYaml] at h
      obtain ⟨_, -, h⟩ := bind_eq_ok_iff.mp h
      cases h
  | list elements =>
      rw [ofYaml] at h
      obtain ⟨_, -, h⟩ := bind_eq_ok_iff.mp h
      cases h
  | map nodes =>
      rw [ofYaml] at h
      obtain ⟨_, hentries, h⟩ := bind_eq_ok_iff.mp h
      cases h
      exact ⟨nodes, hentries⟩

/-- A table that a settings file gives names everything once. -/
theorem namesDiffer_ofYaml {node : Yaml.Node} {setting : Setting}
    (h : ofYaml source node = .ok setting) : setting.NamesDiffer := by
  cases setting with
  | table entries source? =>
      obtain ⟨nodes, hnodes⟩ := exists_of_ofYaml_table h
      have hnil : (([] : SettingLayer).map (·.1)).Nodup := List.nodup_nil
      exact nodup_entriesOfYaml hnil hnodes
  | _ => trivial

/-- All tables in a map of a settings file name everything once. -/
theorem namesDiffer_entriesOfYaml {before after : SettingLayer}
    {nodes : List (Yaml.Node × Yaml.Node)} (hbefore : SettingLayer.NamesDiffer before)
    (h : entriesOfYaml source before nodes = .ok after) : SettingLayer.NamesDiffer after := by
  induction nodes generalizing before with
  | nil =>
      rw [entriesOfYaml] at h
      cases h
      exact hbefore
  | cons node rest ih =>
      obtain ⟨name, setting, hsetting, h⟩ := entriesOfYaml_cons h
      refine ih (fun entry hentry => ?_) h
      rcases Table.mem_putIn hentry with rfl | hentry
      · exact namesDiffer_ofYaml hsetting
      · exact hbefore entry hentry

end Setting

namespace SettingLayer

theorem namesDiffer_nil : NamesDiffer [] := fun _ h => nomatch h

/-- A settings file names everything once, whatever reads it. -/
theorem namesDiffer_ofText {yaml : Yaml.Reader} {name : String} {text : List Char}
    {layer : SettingLayer} (h : ofText yaml name text = .ok layer) : layer.NamesDiffer := by
  unfold ofText at h
  split at h
  · cases h
  · cases h
    exact namesDiffer_nil
  · obtain ⟨setting, hsetting, h⟩ := bind_eq_ok_iff.mp h
    cases setting with
    | table entries source? =>
        cases h
        obtain ⟨nodes, hnodes⟩ := Setting.exists_of_ofYaml_table hsetting
        exact Setting.namesDiffer_entriesOfYaml namesDiffer_nil hnodes
    | _ => cases h
  · cases h

/-- A settings file that is found names everything once. -/
theorem namesDiffer_settingLayer? {yaml : Yaml.Reader} {folder : Folder} {name : String}
    {layer : SettingLayer} (h : folder.settingLayer? yaml name = .ok (some layer)) :
    layer.NamesDiffer := by
  unfold Folder.settingLayer? at h
  split at h
  · cases h
  · split at h
    · cases h
    · obtain ⟨_, htext, hlayer⟩ := map_eq_ok_iff.mp (mapError_eq_ok_iff.mp h)
      cases hlayer
      exact namesDiffer_ofText htext

/-- Variables do not set tables. -/
theorem isTable_setting (name value : String) :
    (Variables.setting name value).isTable = false := by
  unfold Variables.setting
  split
  · rfl
  · rfl
  · split
    · rfl
    · rfl
    · split <;> rfl

/-- Variables name everything once, since they set no tables. -/
theorem namesDiffer_settingLayer (vars : Variables) : vars.settingLayer.NamesDiffer := by
  intro entry hentry
  obtain ⟨⟨name, value⟩, -, hentry⟩ := List.mem_filterMap.mp hentry
  obtain ⟨name, -, rfl⟩ := Option.map_eq_some_iff.mp hentry
  have hnot := isTable_setting name value
  change (Variables.setting name value).NamesDiffer
  cases hsetting : Variables.setting name value with
  | table entries source? => rw [hsetting] at hnot; cases hnot
  | _ => trivial

end SettingLayer

/-! ## Reading the settings -/

namespace ReplayField

/-- The values of a setting. -/
abbrev Value : ReplayField → Type
  | inputPath => String
  | completesAtEnd => Bool
  | connections => List String

/-- The value of a setting. -/
def valueOf (s : ReplaySettings) : (f : ReplayField) → f.Value
  | inputPath => s.inputPath
  | completesAtEnd => s.completesAtEnd
  | connections => s.connections

/-- Reads a setting: an input path must be there, the others have defaults. -/
def read : (f : ReplayField) → Option Setting → Except LoadFault f.Value
  | inputPath, some found => found.asText inputPath.path
  | inputPath, none => .error (.missing inputPath.path)
  | completesAtEnd, some found => found.asFlag completesAtEnd.path
  | completesAtEnd, none => .ok true
  | connections, some found => found.asTexts connections.path
  | connections, none => .ok []

end ReplayField

namespace Setting

variable {α : Type}

/-- Reads a part if it is there. -/
def optionally (read : Setting → Except LoadFault α) : Option Setting → Except LoadFault (Option α)
  | some part => (read part).map some
  | none => .ok none

/-- A part of a table is looked up by name. -/
theorem readPart_table (read : SettingPath → Setting → Except LoadFault α) (path : SettingPath)
    (name : String) (place : Nat) (entries : List (String × Setting))
    (source? : Option SettingSource) :
    (table entries source?).readPart read path name place =
      optionally (read (path ++ [.entry name])) ((table entries source?).find? name) := by
  rw [readPart, part?]
  change _ = optionally (read (path ++ [.entry name])) (Table.find? name entries)
  cases Table.find? name entries <;> rfl

end Setting

namespace ReplayField

/-- An input path has to be there. -/
theorem read_inputPath_eq_ok_iff {found? : Option Setting} {value : String} :
    inputPath.read found? = .ok value ↔
      Setting.optionally (Setting.asText inputPath.path) found? = .ok (some value) := by
  cases found? with
  | none => exact ⟨nofun, nofun⟩
  | some found => simp [read, Setting.optionally, map_eq_ok_iff]

/-- A replay completes at its end unless it is told not to. -/
theorem read_completesAtEnd (found? : Option Setting) :
    completesAtEnd.read found? =
      (Setting.optionally (Setting.asFlag completesAtEnd.path) found?).map (·.getD true) := by
  cases found? with
  | none => rfl
  | some found =>
      rw [read, Setting.optionally]
      cases found.asFlag completesAtEnd.path <;> rfl

/-- Without connections that are named there are none. -/
theorem read_connections (found? : Option Setting) :
    connections.read found? =
      (Setting.optionally (Setting.asTexts connections.path) found?).map (·.getD []) := by
  cases found? with
  | none => rfl
  | some found =>
      rw [read, Setting.optionally]
      cases found.asTexts connections.path <;> rfl

/-- What holds of each setting is said of the three. -/
theorem forall_valueOf_iff {s : ReplaySettings} {P : (f : ReplayField) → f.Value → Prop} :
    (∀ f : ReplayField, P f (f.valueOf s)) ↔
      P inputPath s.inputPath ∧ P completesAtEnd s.completesAtEnd ∧ P connections s.connections :=
  ⟨fun h => ⟨h inputPath, h completesAtEnd, h connections⟩,
    fun ⟨hpath, hend, hconnections⟩ f => match f with
      | inputPath => hpath
      | completesAtEnd => hend
      | connections => hconnections⟩

end ReplayField

open ReplayField in
/-- The settings of a table are looked up by name. -/
theorem Setting.asReplay_of_isTable {replay : Setting} (hreplay : replay.isTable) :
    replay.asReplay [.entry "replay"] = (do
      let path? ← optionally (asText inputPath.path) (replay.find? inputPath.name)
      let end? ← optionally (asFlag completesAtEnd.path) (replay.find? completesAtEnd.name)
      let ids? ← optionally (asTexts connections.path) (replay.find? connections.name)
      match path? with
      | some path => .ok ⟨path, end?.getD true, ids?.getD []⟩
      | none => .error (.missing inputPath.path)) := by
  cases replay with
  | table entries source? =>
      unfold asReplay
      simp only [readPart_table]
      refine bind_congr fun path? => ?_
      cases path? <;> rfl
  | _ => cases hreplay

/-- The settings of a table are read one by one. -/
theorem Setting.asReplay_eq_ok_iff {replay : Setting} (hreplay : replay.isTable)
    {settings : ReplaySettings} :
    replay.asReplay [.entry "replay"] = .ok settings ↔
      ∀ f : ReplayField, f.read (replay.find? f.name) = .ok (f.valueOf settings) := by
  rw [ReplayField.forall_valueOf_iff (P := fun f v => f.read (replay.find? f.name) = .ok v),
    ReplayField.read_inputPath_eq_ok_iff, ReplayField.read_completesAtEnd,
    ReplayField.read_connections, map_eq_ok_iff, map_eq_ok_iff, asReplay_of_isTable hreplay]
  simp only [bind_eq_ok_iff]
  constructor
  · rintro ⟨path?, hpath, end?, hend, connections?, hconnections, h⟩
    cases path? with
    | none => cases h
    | some path =>
        cases h
        exact ⟨hpath, ⟨end?, hend, rfl⟩, connections?, hconnections, rfl⟩
  · rintro ⟨hpath, ⟨end?, hend, hend'⟩, connections?, hconnections, hconnections'⟩
    refine ⟨_, hpath, end?, hend, connections?, hconnections, ?_⟩
    rw [hend', hconnections']

theorem Settings.ofSetting_of_find? {s replay : Setting} (h : s.find? "replay" = some replay) :
    ofSetting s = (replay.asReplay [.entry "replay"]).map Settings.mk := by
  rw [ofSetting, h]

/-- Settings whose replay is a table are read one by one. -/
theorem Settings.ofSetting_eq_ok_iff {s : Setting}
    (hs : ∀ replay ∈ s.find? "replay", replay.isTable) {settings : Settings} :
    ofSetting s = .ok settings ↔
      ∀ f : ReplayField, f.read (s.field? f) = .ok (f.valueOf settings.replay) := by
  unfold Setting.field?
  cases hreplay : s.find? "replay" with
  | none =>
      rw [ofSetting, hreplay]
      exact ⟨nofun, fun h => nomatch h .inputPath⟩
  | some replay =>
      rw [ofSetting_of_find? hreplay, map_eq_ok_iff]
      simp only [Option.bind_some, ← Setting.asReplay_eq_ok_iff (hs replay hreplay)]
      exact ⟨fun ⟨_, h, heq⟩ => heq ▸ h, fun h => ⟨_, h, rfl⟩⟩

end StreamWatch
