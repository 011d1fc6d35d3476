import Mathlib.Tactic.FinCases
import StreamWatch.Proofs.Settings.Reading
import StreamWatch.Proofs.Settings.Unrelated
import StreamWatch.Proofs.Text.Utf8

/-!
# Which source decides a setting

Settings are loaded from the common file, the file of the deployment and the variables. Each setting
of the replay is read from the last of these that says anything of it, and has its default if none
does: `Settings.load_layered`. What the sources say of another setting, the files of other
deployments and variables of other programs make no difference.
-/

namespace StreamWatch

/-! ## Loading -/

/-- The sources of the settings: the common file, the file of the deployment, which may be missing,
and the variables. -/
structure Settings.Sources (yaml : Yaml.Reader) (folder : Folder) (vars : Variables)
    (deployment : Deployment) (common special : SettingLayer) : Prop where
  named : Deployment.ofVariables vars = .ok deployment
  hasCommon : folder.settingLayer? yaml commonFile = .ok (some common)
  hasSpecial : (folder.settingLayer? yaml (fileName deployment.name)).map (·.getD []) = .ok special

/-- Sources that the rules for tables, lists and scalars apply to: the replay is a table wherever it
is named, none of its settings is one, and a source on top of others replaces a setting whole. -/
structure SettingLayer.Regular (layers : List SettingLayer) : Prop where
  plain : ∀ layer ∈ layers, layer.Plain
  whole : ∀ f, ReplacedWhole layers f

namespace Settings

variable {yaml : Yaml.Reader} {folder : Folder} {vars : Variables} {settings : Settings}
  {layers : List SettingLayer}

/-- The sources are laid out if the deployment is named and both files can be read. -/
theorem layers_eq_ok_iff :
    Settings.layers yaml folder vars = .ok layers ↔ ∃ deployment common special,
      Sources yaml folder vars deployment common special ∧
        layers = [common, special, vars.settingLayer] := by
  unfold Settings.layers
  simp only [bind_eq_ok_iff, mapError_eq_ok_iff]
  constructor
  · rintro ⟨deployment, hdeployment, common?, hcommon, h⟩
    cases common? with
    | none => cases h
    | some common =>
        obtain ⟨special?, hspecial, h⟩ := bind_eq_ok_iff.mp h
        cases h
        exact ⟨deployment, common, _, ⟨hdeployment, hcommon, by rw [hspecial]; rfl⟩, rfl⟩
  · rintro ⟨deployment, common, special, h, rfl⟩
    obtain ⟨special?, hspecial, rfl⟩ := map_eq_ok_iff.mp h.hasSpecial
    exact ⟨deployment, h.named, some common, h.hasCommon,
      bind_eq_ok_iff.mpr ⟨special?, hspecial, rfl⟩⟩

/-- None of the sources has a table that names anything twice. -/
theorem Sources.namesDiffer {deployment : Deployment} {common special : SettingLayer}
    (h : Sources yaml folder vars deployment common special) :
    ∀ layer ∈ [common, special, vars.settingLayer], layer.NamesDiffer := by
  have hcommon := SettingLayer.namesDiffer_settingLayer? h.hasCommon
  have hspecial : special.NamesDiffer := by
    obtain ⟨special?, hspecial, rfl⟩ := map_eq_ok_iff.mp h.hasSpecial
    cases special? with
    | none => exact SettingLayer.namesDiffer_nil
    | some special => exact SettingLayer.namesDiffer_settingLayer? hspecial
  have hvars := SettingLayer.namesDiffer_settingLayer vars
  simp [hcommon, hspecial, hvars]

/-- Regular sources are loaded exactly if each setting is read from the last of them that says
anything of it. -/
theorem load_eq_ok_iff (hlayers : Settings.layers yaml folder vars = .ok layers)
    (hregular : SettingLayer.Regular layers) :
    load yaml folder vars = .ok settings ↔ ∀ f : ReplayField,
      f.read (layers.reverse.findSome? (·.tells f)) = .ok (f.valueOf settings.replay) := by
  obtain ⟨deployment, common, special, hsources, rfl⟩ := layers_eq_ok_iff.mp hlayers
  rw [load, hlayers]
  change ofSetting _ = _ ↔ _
  rw [ofSetting_eq_ok_iff (SettingLayer.isTable_replay_foldl_overlay hregular.plain)]
  refine forall_congr' fun f => ?_
  rw [SettingLayer.field?_foldl_overlay hregular.plain hsources.namesDiffer (hregular.whole f)]

end Settings

/-! ## One setting and the others -/

/-- Two sources say the same of every setting but one. -/
def SettingLayer.SameBut (g : ReplayField) (layer layer' : SettingLayer) : Prop :=
  ∀ f ≠ g, layer.tells f = layer'.tells f

/-- An entry that sets one setting of the replay and no other: by its path, or in a table. -/
def ReplayField.SetsOnly (g : ReplayField) (entry : String × Setting) : Prop :=
  (∃ rest, SettingPath.ofName entry.1 = .entry "replay" :: .entry g.name :: rest) ∨
    SettingPath.ofName entry.1 = [.entry "replay"] ∧ ∀ f ≠ g, entry.2.find? f.name = none

/-- An entry that sets another setting says nothing of this one. -/
theorem ReplayField.SetsOnly.hear {f g : ReplayField} {entry : String × Setting}
    (h : g.SetsOnly entry) (hf : f ≠ g) (said? : Option Setting) : f.hear said? entry = said? := by
  rw [ReplayField.hear]
  rcases h with ⟨rest, hpath⟩ | ⟨hpath, hnone⟩
  · have hname : g.name ≠ f.name := fun heq => hf (name_inj.mp heq).symm
    rw [hpath]
    cases rest <;> exact if_neg hname
  · rw [hpath, hearAt, hnone f hf, Option.none_or]

/-- One entry more that sets one setting is a difference in that setting only. -/
theorem SettingLayer.sameBut_insert {g : ReplayField} {entry : String × Setting}
    (h : g.SetsOnly entry) (before after : SettingLayer) :
    SameBut g (before ++ after) (before ++ entry :: after) := by
  intro f hf
  rw [tells, tells, List.foldl_append, List.foldl_append, List.foldl_cons, h.hear hf]

/-- Sources that differ in one setting tell the same of the others, taken together. -/
theorem SettingLayer.findSome?_tells_congr {f g : ReplayField} {layers layers' : List SettingLayer}
    (h : List.Forall₂ (SameBut g) layers layers') (hf : f ≠ g) :
    layers.reverse.findSome? (·.tells f) = layers'.reverse.findSome? (·.tells f) := by
  have hmap : layers.map (·.tells f) = layers'.map (·.tells f) := by
    induction h with
    | nil => rfl
    | cons hlayer _ ih => rw [List.map_cons, List.map_cons, hlayer f hf, ih]
  have hfind (layers : List SettingLayer) : layers.reverse.findSome? (·.tells f) =
      (layers.map (·.tells f)).reverse.findSome? id := by
    rw [← List.map_reverse, List.findSome?_map]
    rfl
  rw [hfind, hfind, hmap]

/-- What the sources say of one setting makes no difference to the others. -/
theorem Settings.valueOf_eq_of_sameBut {yaml : Yaml.Reader} {folder folder' : Folder}
    {vars vars' : Variables} {settings settings' : Settings} {layers layers' : List SettingLayer}
    {g : ReplayField}
    (hlayers : Settings.layers yaml folder vars = .ok layers)
    (hlayers' : Settings.layers yaml folder' vars' = .ok layers')
    (hregular : SettingLayer.Regular layers) (hregular' : SettingLayer.Regular layers')
    (hsame : List.Forall₂ (SettingLayer.SameBut g) layers layers')
    (h : load yaml folder vars = .ok settings) (h' : load yaml folder' vars' = .ok settings')
    (f : ReplayField) (hf : f ≠ g) : f.valueOf settings.replay = f.valueOf settings'.replay := by
  have hread := (load_eq_ok_iff hlayers hregular).mp h f
  have hread' := (load_eq_ok_iff hlayers' hregular').mp h' f
  rw [SettingLayer.findSome?_tells_congr hsame hf, hread'] at hread
  exact (Except.ok.inj hread).symm

namespace Settings

/-- Only one variable names the deployment. -/
theorem Sources.insert_variable {yaml : Yaml.Reader} {folder : Folder} {deployment : Deployment}
    {common special : SettingLayer} {before after : Variables} {name : String}
    (h : Sources yaml folder (before ++ after) deployment common special)
    (hname : name ≠ Deployment.variableName) (text : String) :
    Sources yaml folder (before ++ (name, text) :: after) deployment common special where
  named := by
    have hget : Variables.get? (before ++ (name, text) :: after) Deployment.variableName =
        Variables.get? (before ++ after) Deployment.variableName := by
      simp [Variables.get?, List.find?_append, hname]
    rw [Deployment.ofVariables, hget]
    exact h.named
  hasCommon := h.hasCommon
  hasSpecial := h.hasSpecial

/-! ## A folder with two files -/

/-- The text of a common file. -/
def sampleCommon : List Char :=
  "replay:\n  input_path: events.ndjson\n  connection_ids: [a, b]\n".toList

/-- The text of the file of a deployment. -/
def sampleSpecial : List Char := "replay:\n  input_path: dev.ndjson\n".toList

/-- A folder with a common file and the file of one deployment. -/
def sampleFolder : Folder where
  files := [(["configuration", "base.yaml"], Utf8.encode sampleCommon),
    (["configuration", "dev.yaml"], Utf8.encode sampleSpecial)]

/-- A variable that names the deployment. -/
def sampleDeployment : Variables := [("APP_ENVIRONMENT", "Dev")]

/-- Variables that name the deployment and set the connections. -/
def sampleVariables : Variables := ("APP_REPLAY__CONNECTION_IDS", "x,y") :: sampleDeployment

/-- What the common file sets. -/
def sampleCommonLayer : SettingLayer :=
  let source? := some (SettingSource.file "configuration/base.yaml")
  [("replay", .table [("input_path", .scalar (.text "events.ndjson") source?),
    ("connection_ids", .list [.scalar (.text "a") source?, .scalar (.text "b") source?] source?)]
    source?)]

/-- What the file of the deployment sets. -/
def sampleSpecialLayer : SettingLayer :=
  let source? := some (SettingSource.file "configuration/dev.yaml")
  [("replay", .table [("input_path", .scalar (.text "dev.ndjson") source?)] source?)]

open Yaml Token in
/-- The common file, read. -/
theorem ofText_sampleCommon :
    SettingLayer.ofText documents? "configuration/base.yaml" sampleCommon =
      .ok sampleCommonLayer := by
  have htokens : tokens? (unifyLines (sampleCommon.takeWhile (· ≠ '\x00'))) =
      some [blockMap, key, scalar (.text "replay"), value, blockMap, key,
        scalar (.text "input_path"), value, scalar (.text "events.ndjson"), key,
        scalar (.text "connection_ids"), value, openList, scalar (.text "a"), comma,
        scalar (.text "b"), closeList, blockEnd, blockEnd] := by
    decide +kernel
  rw [SettingLayer.ofText, documents?, if_neg (by decide), htokens]
  rfl

open Yaml Token in
/-- The file of the deployment, read. -/
theorem ofText_sampleSpecial :
    SettingLayer.ofText documents? "configuration/dev.yaml" sampleSpecial =
      .ok sampleSpecialLayer := by
  have htokens : tokens? (unifyLines (sampleSpecial.takeWhile (· ≠ '\x00'))) =
      some [blockMap, key, scalar (.text "replay"), value, blockMap, key,
        scalar (.text "input_path"), value, scalar (.text "dev.ndjson"), blockEnd, blockEnd] := by
    decide +kernel
  rw [SettingLayer.ofText, documents?, if_neg (by decide), htokens]
  rfl

theorem settingLayer?_sampleCommon :
    sampleFolder.settingLayer? Yaml.documents? commonFile = .ok (some sampleCommonLayer) := by
  have hfile : sampleFolder.settingsFile? commonFile =
      some ("configuration/base.yaml", Utf8.encode sampleCommon) := by
    decide
  rw [Folder.settingLayer?, hfile]
  simp only [Utf8.decode_encode, ofText_sampleCommon]
  rfl

theorem settingLayer?_sampleSpecial :
    sampleFolder.settingLayer? Yaml.documents? (fileName Deployment.dev.name) =
      .ok (some sampleSpecialLayer) := by
  have hfile : sampleFolder.settingsFile? (fileName Deployment.dev.name) =
      some ("configuration/dev.yaml", Utf8.encode sampleSpecial) := by
    decide
  rw [Folder.settingLayer?, hfile]
  simp only [Utf8.decode_encode, ofText_sampleSpecial]
  rfl

/-- The sources, with any variables that name the deployment. -/
theorem sources_sample {vars : Variables} (h : Deployment.ofVariables vars = .ok .dev) :
    Sources Yaml.documents? sampleFolder vars .dev sampleCommonLayer sampleSpecialLayer :=
  ⟨h, settingLayer?_sampleCommon, by rw [settingLayer?_sampleSpecial]; rfl⟩

/-- What the variables set. -/
theorem settingLayer_sample : sampleVariables.settingLayer =
    let source? := some SettingSource.environment
    [("replay.connection_ids",
        .list [.scalar (.text "x") source?, .scalar (.text "y") source?] source?),
      ("environment", .scalar (.text "Dev") source?)] :=
  rfl

/-- A file with nothing but a replay is plain if the replay is. -/
theorem plain_of_replay {value : Setting} (htable : value.isTable)
    (hparts : ∀ f : ReplayField, ∀ part ∈ value.find? f.name, part.isTable = false) :
    SettingLayer.Plain [("replay", value)] := by
  intro entry hentry
  have hpath : SettingPath.ofName "replay" = [.entry "replay"] := by decide
  cases List.mem_singleton.mp hentry
  rw [hpath]
  exact ⟨htable, hparts⟩

theorem plain_sample : SettingLayer.Plain sampleVariables.settingLayer := by
  have henvironment : SettingPath.ofName "environment" = [.entry "environment"] := by decide
  have hconnections : SettingPath.ofName "replay.connection_ids" =
      [.entry "replay", .entry "connection_ids"] := by
    decide
  rw [settingLayer_sample]
  intro entry hentry
  rcases List.mem_pair.mp hentry with rfl | rfl
  · rw [hconnections]
    exact fun _ _ => rfl
  · rw [henvironment]
    trivial

/-- The files with some of the variables. -/
theorem regular_sample {layer : SettingLayer} (hlayer : layer ⊆ sampleVariables.settingLayer) :
    SettingLayer.Regular [sampleCommonLayer, sampleSpecialLayer, layer] where
  plain := by
    simp only [List.forall_mem_cons, List.not_mem_nil, false_implies, implies_true, and_true]
    refine ⟨plain_of_replay rfl fun f => ?_, plain_of_replay rfl fun f => ?_,
      fun entry hentry => plain_sample entry (hlayer hentry)⟩
    · cases f <;> decide
    · cases f <;> decide
  whole f := by
    have hlength : ∀ entry ∈ sampleVariables.settingLayer,
        (SettingPath.ofName entry.1).length ≤ 2 := by
      rw [settingLayer_sample]
      decide
    refine SettingLayer.replacedWhole_of_length_le ?_
    simp only [List.forall_mem_cons, List.not_mem_nil, false_implies, implies_true, and_true]
    exact ⟨by decide, by decide, fun entry hentry => hlength entry (hlayer hentry)⟩

/-- When settings are loaded, whatever reads the files, each setting of the replay is read from the
last source that says anything of it: the variables before the file of the deployment that they
name, which is production if they name none, before the common file. If no source says anything of
it, it has its default. Sources that differ in what they say of one setting only give the others the
same values. The files of other deployments and variables without the mark of a setting make no
difference. -/
theorem load_layered (yaml : Yaml.Reader) (folder : Folder) (vars : Variables)
    (hregular : ∀ layers, Settings.layers yaml folder vars = .ok layers →
      SettingLayer.Regular layers) :
    (∀ settings, load yaml folder vars = .ok settings ↔
      ∃ deployment common special, Sources yaml folder vars deployment common special ∧
        ∀ f : ReplayField, f.read ([vars.settingLayer, special, common].findSome? (·.tells f)) =
          .ok (f.valueOf settings.replay)) ∧
      (∀ folder' vars' layers layers' settings settings' g,
        Settings.layers yaml folder vars = .ok layers →
        Settings.layers yaml folder' vars' = .ok layers' → SettingLayer.Regular layers' →
        List.Forall₂ (SettingLayer.SameBut g) layers layers' →
        load yaml folder vars = .ok settings → load yaml folder' vars' = .ok settings' →
        ∀ f ≠ g, f.valueOf settings.replay = f.valueOf settings'.replay) ∧
      (∀ folder' deployment, Deployment.ofVariables vars = .ok deployment →
        Folder.SameBut deployment.OtherFile folder folder' →
        load yaml folder' vars = load yaml folder vars) ∧
      ∀ vars' : Variables, vars'.marked = vars.marked →
        load yaml folder vars' = load yaml folder vars := by
  refine ⟨fun settings => ?_, ?_, fun folder' deployment => load_congr_folder, ?_⟩
  · constructor
    · intro h
      obtain ⟨layers, hlayers, -⟩ := bind_eq_ok_iff.mp h
      have hread := (load_eq_ok_iff hlayers (hregular layers hlayers)).mp h
      obtain ⟨deployment, common, special, hsources, rfl⟩ := layers_eq_ok_iff.mp hlayers
      exact ⟨deployment, common, special, hsources, hread⟩
    · rintro ⟨deployment, common, special, hsources, hread⟩
      have hlayers := layers_eq_ok_iff.mpr ⟨deployment, common, special, hsources, rfl⟩
      exact (load_eq_ok_iff hlayers (hregular _ hlayers)).mpr hread
  · intro folder' vars' layers layers' settings settings' g hlayers hlayers'
    exact valueOf_eq_of_sameBut hlayers hlayers' (hregular layers hlayers)
  · intro vars' h
    rw [← load_marked, h, load_marked]

/-- Two files and a variable, which set the input path twice and the connections twice. Neither the
variable nor the file of another deployment has to do with the input path. -/
theorem load_layered_of_dev :
    load Yaml.documents? sampleFolder sampleVariables = .ok ⟨"dev.ndjson", true, ["x", "y"]⟩ ∧
      load Yaml.documents? sampleFolder sampleDeployment = .ok ⟨"dev.ndjson", true, ["a", "b"]⟩ ∧
      ReplayField.inputPath.valueOf ⟨"dev.ndjson", true, ["x", "y"]⟩ =
        ReplayField.inputPath.valueOf ⟨"dev.ndjson", true, ["a", "b"]⟩ ∧
      load Yaml.documents? ⟨(["configuration", "prod.yaml"], [0xff]) :: sampleFolder.files, []⟩
          sampleVariables =
        load Yaml.documents? sampleFolder sampleVariables ∧
      load Yaml.documents? sampleFolder (("PATH", "/bin") :: sampleVariables) =
        load Yaml.documents? sampleFolder sampleVariables := by
  have hregular (vars : Variables) (h : Deployment.ofVariables vars = .ok .dev)
      (hvars : vars.settingLayer ⊆ sampleVariables.settingLayer) (layers : List SettingLayer)
      (hl : Settings.layers Yaml.documents? sampleFolder vars = .ok layers) :
      SettingLayer.Regular layers := by
    rw [layers_eq_ok_iff.mpr ⟨.dev, _, _, sources_sample h, rfl⟩] at hl
    exact Except.ok.inj hl ▸ regular_sample hvars
  have hsub : sampleDeployment.settingLayer ⊆ sampleVariables.settingLayer :=
    List.subset_cons_self _ _
  have hmore := hregular sampleVariables rfl (List.Subset.refl _)
  have hless := hregular sampleDeployment rfl hsub
  obtain ⟨hload, hsame, hfiles, hvars⟩ :=
    load_layered Yaml.documents? sampleFolder sampleVariables hmore
  have hload₁ : load Yaml.documents? sampleFolder sampleVariables =
      .ok ⟨"dev.ndjson", true, ["x", "y"]⟩ :=
    (hload _).mpr ⟨.dev, _, _, sources_sample rfl, fun f => by cases f <;> rfl⟩
  have hload₂ : load Yaml.documents? sampleFolder sampleDeployment =
      .ok ⟨"dev.ndjson", true, ["a", "b"]⟩ :=
    ((load_layered Yaml.documents? sampleFolder sampleDeployment hless).1 _).mpr
      ⟨.dev, _, _, sources_sample rfl, fun f => by cases f <;> rfl⟩
  have hlayers (vars : Variables) (h : Deployment.ofVariables vars = .ok .dev) :=
    layers_eq_ok_iff.mpr ⟨.dev, _, _, sources_sample h, rfl⟩
  have honly : ReplayField.connections.SetsOnly ("replay.connection_ids",
      Variables.setting Variables.listName "x,y") :=
    .inl ⟨[], by decide⟩
  have hinsert := SettingLayer.sameBut_insert honly [] sampleDeployment.settingLayer
  have hother : Deployment.dev.OtherFile ["configuration", "prod.yaml"] :=
    ⟨.prod, by decide, "", by decide, by decide⟩
  have hfolder : Folder.hasFolder ⟨[] ++ sampleFolder.files, []⟩ ["configuration"] := by decide
  refine ⟨hload₁, hload₂, ?_, hfiles _ .dev rfl ?_, hvars _ rfl⟩
  · refine hsame _ _ _ _ _ _ .connections (hlayers _ rfl) (hlayers _ rfl) (hless _ (hlayers _ rfl))
      ?_ hload₁ hload₂ .inputPath (by decide)
    exact .cons (fun _ _ => rfl) (.cons (fun _ _ => rfl)
      (.cons (fun f hf => (hinsert f hf).symm) .nil))
  · exact Deployment.sameBut_insert hother hfolder [0xff]

end Settings

end StreamWatch
