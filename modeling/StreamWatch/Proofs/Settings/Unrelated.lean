import StreamWatch.Settings.Load

/-!
# What makes no difference to the settings

Settings are read from two files and from the variables that start with the mark of a setting. The
files of other deployments and other variables may be there or not: `Settings.load_congr_folder` and
`Settings.load_marked`.
-/

namespace StreamWatch

/-! ## Folders that differ in some files -/

namespace Folder

variable {f f' : Folder} {path first second : String}

/-- Two folders hold the same but for what some names lead to. -/
structure SameBut (P : List String → Prop) (f f' : Folder) : Prop where
  file? : ∀ place, ¬ P place → f'.file? place = f.file? place
  hasFolder : ∀ place, ¬ P place → f'.hasFolder place = f.hasFolder place

/-- One file more, in folders that are there, is a difference in its own place. -/
theorem sameBut_insert {P : List String → Prop} {before after : List (List String × List UInt8)}
    {folders : List (List String)} {place : List String} (hP : P place)
    (habove : ∀ above, above <+: place → above ≠ place →
      hasFolder ⟨before ++ after, folders⟩ above) (content : List UInt8) :
    SameBut P ⟨before ++ after, folders⟩ ⟨before ++ (place, content) :: after, folders⟩ where
  file? other hother := by
    have hne : place ≠ other := by
      rintro rfl
      exact hother hP
    simp [file?, List.find?_append, hne]
  hasFolder other hother := by
    by_cases h : other <+: place
    · have hfolder := habove other h (fun heq => hother (heq ▸ hP))
      rw [hfolder]
      simp only [hasFolder, List.any_append, List.any_cons, Bool.or_eq_true] at hfolder ⊢
      exact hfolder.imp_right (Or.imp_right Or.inr)
    · have hnot : other.isPrefixOf place = false := by
        rw [← Bool.not_eq_true, List.isPrefixOf_iff_prefix]
        exact h
      simp [hasFolder, hnot]

/-- A name that leads from a folder to what it holds. -/
def isProper (name : String) : Bool := !isDots name && name.utf8ByteSize ≤ longestName

/-- A path to what a folder in the working directory holds. -/
def leadsTo (path first second : String) : Bool :=
  names path = [first, second] && isProper first && isProper second && !path.isEmpty &&
    !path.toList.contains '\x00' && path.toList.head? ≠ some '/'

/-- A name that leads on leads to what the folder holds. -/
theorem walk_proper (f : Folder) (place : List String) {name : String} (hname : isProper name)
    (rest : List String) :
    f.walk place (name :: rest) =
      if (f.file? place).isSome then .error .notFolder
      else if f.hasFolder (place ++ [name]) || (f.file? (place ++ [name])).isSome then
        f.walk (place ++ [name]) rest
      else .error .missing := by
  simp only [isProper, isDots, Bool.and_eq_true, Bool.not_eq_true', Bool.or_eq_false_iff,
    decide_eq_false_iff_not, decide_eq_true_eq] at hname
  obtain ⟨⟨⟨hempty, hdot⟩, hdots⟩, hlength⟩ := hname
  rw [walk]
  simp [hempty, hdot, hdots, Nat.not_lt.mpr hlength]

/-- Looking at such a path is walking along its two names. -/
theorem look_of_leadsTo (f : Folder) (h : leadsTo path first second) :
    f.look path = f.walk [] [first, second] := by
  simp only [leadsTo, Bool.and_eq_true, decide_eq_true_eq, Bool.not_eq_true'] at h
  obtain ⟨⟨⟨⟨⟨hnames, -⟩, -⟩, hempty⟩, hnul⟩, hhead⟩ := h
  unfold look
  rw [hnames]
  simp only [hnul, hempty, hhead, Bool.false_eq_true, if_false]

/-- Walking along two names, the second has to be in the folder of the first. -/
theorem walk_pair (f : Folder) (hfirst : isProper first) (hsecond : isProper second) :
    f.walk [] [first, second] =
      if (f.file? []).isSome then .error .notFolder
      else if f.hasFolder [first] || (f.file? [first]).isSome then
        if (f.file? [first]).isSome then .error .notFolder
        else if f.hasFolder [first, second] || (f.file? [first, second]).isSome then
          .ok (if f.hasFolder [first, second] then .folder
            else .file ((f.file? [first, second]).getD []))
        else .error .missing
      else .error .missing := by
  rw [walk_proper f [] hfirst, walk_proper f _ hsecond, walk]
  rfl

/-- What is read at such a path depends on the names on the way. -/
theorem read?_congr (hpath : leadsTo path first second)
    (h : ∀ place ∈ [[], [first], [first, second]],
      f'.file? place = f.file? place ∧ f'.hasFolder place = f.hasFolder place) :
    f'.read? path = f.read? path := by
  have hproper := hpath
  simp only [leadsTo, Bool.and_eq_true] at hproper
  obtain ⟨⟨⟨⟨⟨-, hfirst⟩, hsecond⟩, -⟩, -⟩, -⟩ := hproper
  obtain ⟨hfile₀, -⟩ := h [] (by simp)
  obtain ⟨hfile₁, hfolder₁⟩ := h [first] (by simp)
  obtain ⟨hfile₂, hfolder₂⟩ := h [first, second] (by simp)
  rw [read?, read?, look_of_leadsTo f hpath, look_of_leadsTo f' hpath,
    walk_pair f hfirst hsecond, walk_pair f' hfirst hsecond, hfile₀, hfile₁, hfolder₁, hfile₂,
    hfolder₂]

end Folder

/-! ## Files of other deployments -/

/-- Where the settings files of the deployments other than this one are. -/
def Deployment.OtherFile (deployment : Deployment) (place : List String) : Prop :=
  ∃ other ≠ deployment, ∃ ending ∈ settingsEndings,
    place = ["configuration", other.name ++ ".yaml" ++ ending]

/-- A file more of another deployment is a difference in its own place, if there is a folder for
it. -/
theorem Deployment.sameBut_insert {deployment : Deployment}
    {before after : List (List String × List UInt8)} {folders : List (List String)}
    {place : List String} (hplace : deployment.OtherFile place)
    (hfolder : Folder.hasFolder ⟨before ++ after, folders⟩ ["configuration"])
    (content : List UInt8) :
    Folder.SameBut deployment.OtherFile ⟨before ++ after, folders⟩
      ⟨before ++ (place, content) :: after, folders⟩ := by
  refine Folder.sameBut_insert hplace (fun above habove hne => ?_) content
  obtain ⟨other, -, ending, -, rfl⟩ := hplace
  rcases List.prefix_cons_iff.mp habove with rfl | ⟨rest, rfl, hrest⟩
  · rfl
  · rcases List.prefix_cons_iff.mp hrest with rfl | ⟨last, rfl, hlast⟩
    · exact hfolder
    · exact absurd (congrArg _ (congrArg _ (List.prefix_nil.mp hlast))) hne

namespace Settings

variable {yaml : Yaml.Reader} {folder folder' : Folder} {vars : Variables}
  {deployment : Deployment}

/-- A settings file is looked for under three names, and read from the first. -/
theorem settingLayer?_congr {name : String}
    (h : ∀ ending ∈ settingsEndings,
      folder'.read? (name ++ ending) = folder.read? (name ++ ending)) :
    folder'.settingLayer? yaml name = folder.settingLayer? yaml name := by
  have hfile : folder'.settingsFile? name = folder.settingsFile? name := by
    simp only [Folder.settingsFile?, settingsEndings, List.findSome?_cons, List.findSome?_nil]
    rw [h "" (by decide), h ".yaml" (by decide), h ".yml" (by decide)]
  rw [Folder.settingLayer?, Folder.settingLayer?, hfile]

/-- The common file is in the folder of the settings. -/
theorem leadsTo_commonFile : ∀ ending ∈ settingsEndings,
    Folder.leadsTo (commonFile ++ ending) "configuration" ("base.yaml" ++ ending) := by
  decide

theorem leadsTo_fileName (deployment : Deployment) : ∀ ending ∈ settingsEndings,
    Folder.leadsTo (fileName deployment.name ++ ending) "configuration"
      (deployment.name ++ ".yaml" ++ ending) := by
  cases deployment <;> decide

/-- No name on the way to a file is a file of another deployment, if the file is none. -/
theorem not_otherFile {name : String}
    (h : ∀ other ≠ deployment, ∀ ending ∈ settingsEndings, name ≠ other.name ++ ".yaml" ++ ending) :
    ∀ place ∈ [[], ["configuration"], ["configuration", name]], ¬ deployment.OtherFile place := by
  rintro place hplace ⟨other, hother, ending, hending, rfl⟩
  have hname := h other hother ending hending
  simp [hname.symm] at hplace

/-- The common file is no file of another deployment. -/
theorem not_otherFile_common (deployment : Deployment) : ∀ ending ∈ settingsEndings,
    ∀ place ∈ [[], ["configuration"], ["configuration", "base.yaml" ++ ending]],
      ¬ deployment.OtherFile place := by
  intro ending hending
  refine not_otherFile fun other _ ending' hending' => ?_
  revert ending ending'
  cases other <;> decide

theorem not_otherFile_own (deployment : Deployment) : ∀ ending ∈ settingsEndings,
    ∀ place ∈ [[], ["configuration"], ["configuration", deployment.name ++ ".yaml" ++ ending]],
      ¬ deployment.OtherFile place := by
  intro ending hending
  refine not_otherFile fun other hother ending' hending' => ?_
  revert ending ending' hother
  cases other <;> cases deployment <;> decide

/-- What is read at a path is the same if only files of other deployments differ. -/
theorem read?_eq_of_sameBut {path name : String}
    (h : Folder.SameBut deployment.OtherFile folder folder')
    (hpath : Folder.leadsTo path "configuration" name)
    (hname : ∀ place ∈ [[], ["configuration"], ["configuration", name]],
      ¬ deployment.OtherFile place) : folder'.read? path = folder.read? path :=
  Folder.read?_congr hpath fun place hplace =>
    ⟨h.file? place (hname place hplace), h.hasFolder place (hname place hplace)⟩

/-- Files of other deployments make no difference. -/
theorem load_congr_folder (hdeployment : Deployment.ofVariables vars = .ok deployment)
    (h : Folder.SameBut deployment.OtherFile folder folder') :
    load yaml folder' vars = load yaml folder vars := by
  have hcommon : folder'.settingLayer? yaml commonFile =
      folder.settingLayer? yaml commonFile :=
    settingLayer?_congr fun ending hending =>
      read?_eq_of_sameBut h (leadsTo_commonFile ending hending)
        (not_otherFile_common deployment ending hending)
  have hspecial : folder'.settingLayer? yaml (fileName deployment.name) =
      folder.settingLayer? yaml (fileName deployment.name) :=
    settingLayer?_congr fun ending hending =>
      read?_eq_of_sameBut h (leadsTo_fileName deployment ending hending)
        (not_otherFile_own deployment ending hending)
  have hlayers : Settings.layers yaml folder' vars = Settings.layers yaml folder vars := by
    rw [Settings.layers, Settings.layers, hdeployment, hcommon]
    cases folder.settingLayer? yaml commonFile with
    | error fault => rfl
    | ok common? =>
        cases common? with
        | none => rfl
        | some common =>
            change (folder'.settingLayer? yaml (fileName deployment.name) >>= _) =
              (folder.settingLayer? yaml (fileName deployment.name) >>= _)
            rw [hspecial]
  rw [load, load, hlayers]

end Settings

/-! ## Other variables -/

namespace Variables

/-- The variables with the mark of a setting. -/
def marked (vars : Variables) : Variables := vars.filter fun v => (settingName? v.1).isSome

theorem settingLayer_append (before after : Variables) :
    settingLayer (before ++ after) = before.settingLayer ++ after.settingLayer :=
  List.filterMap_append

/-- A variable that is a setting has its entry in its place. -/
theorem settingLayer_insert {name text set : String} (hname : settingName? name = some set)
    (before after : Variables) :
    settingLayer (before ++ (name, text) :: after) =
      before.settingLayer ++ (set, setting set text) :: after.settingLayer := by
  simp [settingLayer, hname]

/-- The variable that names the deployment does not lead to the replay. -/
theorem ne_variableName {name set : String} {rest : SettingPath}
    (hname : settingName? name = some set)
    (hpath : SettingPath.ofName set = .entry "replay" :: rest) :
    name ≠ Deployment.variableName := by
  rintro rfl
  have henvironment : settingName? Deployment.variableName = some "environment" := by decide
  have hstep : SettingPath.ofName "environment" = [.entry "environment"] := by decide
  cases henvironment.symm.trans hname
  rw [hstep] at hpath
  simp at hpath

/-- Variables without the mark of a setting set nothing. -/
theorem settingLayer_marked (vars : Variables) :
    vars.marked.settingLayer = vars.settingLayer := by
  rw [marked, settingLayer, settingLayer, List.filterMap_filter]
  refine congrArg (fun g => List.filterMap g vars) (funext fun ⟨name, value⟩ => ?_)
  cases hname : settingName? name <;> simp [hname]

/-- Variables without the mark of a setting do not name the deployment. -/
theorem ofVariables_marked (vars : Variables) :
    Deployment.ofVariables vars.marked = Deployment.ofVariables vars := by
  have hget : vars.marked.get? Deployment.variableName = vars.get? Deployment.variableName := by
    have hname : (settingName? Deployment.variableName).isSome := by decide
    rw [marked, get?, get?, List.find?_filter]
    refine congrArg (fun p => (vars.find? p).map (·.2)) (funext fun v => ?_)
    by_cases hv : v.1 = Deployment.variableName
    · simp [hv, hname]
    · simp [hv]
  rw [Deployment.ofVariables, Deployment.ofVariables, hget]

end Variables

namespace Settings

/-- Variables that are no settings make no difference. -/
theorem load_marked (yaml : Yaml.Reader) (folder : Folder) (vars : Variables) :
    load yaml folder vars.marked = load yaml folder vars := by
  have hlayers : Settings.layers yaml folder vars.marked =
      Settings.layers yaml folder vars := by
    rw [Settings.layers, Settings.layers, Variables.ofVariables_marked,
      Variables.settingLayer_marked]
  rw [load, load, hlayers]

end Settings

end StreamWatch
