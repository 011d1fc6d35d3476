import Mathlib.Data.List.TakeDrop
import Mathlib.Data.List.TakeWhile
import StreamWatch.Proofs.Settings.Layered

/-!
# Texts and lists of texts in variables

The text of a variable is taken for a truth value or a number wherever it is one, and only then for
text, or for a list that is cut at its commas. A setting that is a text is written back from what it
was taken for, so some spellings of it are lost. A list of one text that is a truth value or a
number is not loaded at all. All else arrives as it was written: `Settings.load_variable`.
-/

namespace StreamWatch

/-! ## Lists -/

namespace Separated

variable {mark : Char} {part : List Char}

/-- A text without the mark is one part. -/
theorem split_of_not_mem (h : mark ∉ part) : split mark part = [part] := by
  induction part with
  | nil => rfl
  | cons c rest ih =>
      rw [split, if_neg (List.ne_of_not_mem_cons h).symm, ih (List.not_mem_of_not_mem_cons h)]

/-- A mark ends the part before it. -/
theorem split_append_mark (h : mark ∉ part) (rest : List Char) :
    split mark (part ++ mark :: rest) = part :: split mark rest := by
  induction part with
  | nil => rw [List.nil_append, split, if_pos rfl]
  | cons c part ih =>
      rw [List.cons_append, split, if_neg (List.ne_of_not_mem_cons h).symm,
        ih (List.not_mem_of_not_mem_cons h)]

/-- Parts without marks are what their text is cut into. -/
theorem split_intercalate {parts : List (List Char)} (hne : parts ≠ [])
    (h : ∀ part ∈ parts, mark ∉ part) : split mark ([mark].intercalate parts) = parts := by
  induction parts with
  | nil => exact absurd rfl hne
  | cons part rest ih =>
      cases rest with
      | nil => simpa using split_of_not_mem (h part List.mem_cons_self)
      | cons next rest =>
          rw [List.intercalate_cons_cons, List.append_assoc, List.singleton_append,
            split_append_mark (h part List.mem_cons_self),
            ih (List.cons_ne_nil _ _) fun p hp => h p (List.mem_cons_of_mem _ hp)]

/-- Texts without commas are what their text is cut into at the commas. -/
theorem splitString_intercalate {texts : List String} (hne : texts ≠ [])
    (h : ∀ text ∈ texts, ',' ∉ text.toList) :
    splitString ',' (",".intercalate texts) = texts := by
  have hparts : ∀ part ∈ texts.map String.toList, ',' ∉ part := by
    simpa using h
  have hcomma : ",".toList = [','] := rfl
  rw [splitString, String.toList_intercalate, hcomma,
    split_intercalate (by simpa using hne) hparts, List.map_map]
  exact (List.map_congr_left fun text _ => String.ofList_toList).trans (List.map_id texts)

/-- Two texts or more are joined by a comma. -/
theorem comma_mem_intercalate {texts : List String} (h : 2 ≤ texts.length) :
    ',' ∈ (",".intercalate texts).toList := by
  match texts with
  | first :: next :: rest =>
      have hcomma : ",".toList = [','] := rfl
      rw [String.toList_intercalate, hcomma, List.map_cons, List.map_cons,
        List.intercalate_cons_cons]
      simp

end Separated

/-! ## What no word and no numeral contains -/

namespace Numeral

/-- A character that stands in no word and in no numeral, such as a slash or a comma. -/
def isForeign (c : Char) : Bool :=
  c.toNat < 0x80 && !c.isAlphanum && c ≠ '+' && c ≠ '-' && c ≠ '.'

variable {c : Char} {cs : List Char}

/-- A character that is foreign to words and numerals is none that is not. -/
theorem ne_of_isForeign (hc : isForeign c) {d : Char} (hd : isForeign d = false) : c ≠ d := by
  rintro rfl
  rw [hc] at hd
  cases hd

theorem toNat_lt_of_isForeign (hc : isForeign c) : c.toNat < 0x80 := by
  simp_all [isForeign]

/-- It is no capital, no small letter and no digit. -/
theorem not_mem_ranges_of_isForeign (hc : isForeign c) : ¬ ('A' ≤ c ∧ c ≤ 'Z') ∧
    ¬ ('a' ≤ c ∧ c ≤ 'z') ∧ ¬ ('0' ≤ c ∧ c ≤ '9') := by
  have halphanum : c.isAlphanum = false := by
    simp_all [isForeign]
  change (decide ('A' ≤ c ∧ c ≤ 'Z') || (decide ('a' ≤ c) && decide (c ≤ 'z')) ||
    (decide ('0' ≤ c) && decide (c ≤ '9'))) = false at halphanum
  simp only [Bool.or_eq_false_iff, Bool.and_eq_false_iff, decide_eq_false_iff_not] at halphanum
  obtain ⟨⟨hupper, hlower⟩, hdigit⟩ := halphanum
  exact ⟨hupper, not_and_or.mpr hlower, not_and_or.mpr hdigit⟩

/-- It is no digit. -/
theorem not_isDigit_of_isForeign (hc : isForeign c) : ¬ c.isDigit := by
  simp_all [isForeign, Char.isAlphanum]

/-- It is no hexadecimal digit. -/
theorem value?_of_isForeign (hc : isForeign c) : Hex.value? c = none := by
  obtain ⟨hupper, hlower, hdigit⟩ := not_mem_ranges_of_isForeign hc
  have hf : 'f' ≤ 'z' := by decide
  have hF : 'F' ≤ 'Z' := by decide
  rw [Hex.value?, if_neg hdigit, if_neg fun h => hlower ⟨h.1, Char.le_trans h.2 hf⟩,
    if_neg fun h => hupper ⟨h.1, Char.le_trans h.2 hF⟩]

/-- Digits with such a character in them are none, in whatever base. -/
theorem digits?_of_mem (hc : isForeign c) (h : c ∈ cs) (base soFar : Nat) :
    digits? base soFar cs = none := by
  induction cs generalizing soFar with
  | nil => cases h
  | cons d rest ih =>
      rw [digits?]
      rcases List.mem_cons.mp h with rfl | h
      · rw [value?_of_isForeign hc]
        rfl
      · cases Hex.value? d with
        | none => rfl
        | some value =>
            change (if _ then _ else _) = none
            rw [ih h, ite_self]

theorem natural?_of_mem (hc : isForeign c) (h : c ∈ cs) (base : Nat) : natural? base cs = none := by
  cases cs with
  | nil => cases h
  | cons d rest => exact digits?_of_mem hc h base 0

/-- Such a character stands behind the sign. -/
theorem mem_sign (hc : isForeign c) (h : c ∈ cs) : c ∈ (sign cs).2 := by
  unfold sign
  split
  · exact (List.mem_cons.mp h).resolve_left (ne_of_isForeign hc (by decide))
  · exact (List.mem_cons.mp h).resolve_left (ne_of_isForeign hc (by decide))
  · exact h

theorem signed?_of_mem (hc : isForeign c) (h : c ∈ cs) (base : Nat) : signed? base cs = none := by
  rw [signed?]
  change (natural? base (sign cs).2).bind _ = none
  rw [natural?_of_mem hc (mem_sign hc h)]
  rfl

theorem integer?_of_mem (hc : isForeign c) (h : c ∈ cs) (base : Nat) : integer? base cs = none := by
  rw [integer?, signed?_of_mem hc h]
  rfl

theorem exponent?_of_mem (hc : isForeign c) (h : c ∈ cs) : exponent? cs = none := by
  unfold exponent?
  split
  · cases h
  · exact signed?_of_mem hc
      ((List.mem_cons.mp h).resolve_left (ne_of_isForeign hc (by decide))) 10
  · exact signed?_of_mem hc
      ((List.mem_cons.mp h).resolve_left (ne_of_isForeign hc (by decide))) 10
  · rfl

/-- Such a character stands behind the digits. -/
theorem mem_span (hc : isForeign c) (h : c ∈ cs) : c ∈ (cs.span Char.isDigit).2 := by
  rw [List.span_eq_takeWhile_dropWhile]
  rw [← List.takeWhile_append_dropWhile (p := Char.isDigit) (l := cs)] at h
  refine (List.mem_append.mp h).resolve_left fun h => ?_
  exact not_isDigit_of_isForeign hc (List.mem_takeWhile_imp h)

/-- Such a character stands behind the fraction. -/
theorem mem_fraction (hc : isForeign c) (h : c ∈ cs) : c ∈ (fraction cs).2 := by
  unfold fraction
  split
  · exact mem_span hc ((List.mem_cons.mp h).resolve_left (ne_of_isForeign hc (by decide)))
  · exact h

/-- No decimal has such a character in it. -/
theorem decimal?_of_mem (hc : isForeign c) (h : c ∈ cs) (negative : Bool) :
    decimal? negative cs = none := by
  cases hwhole : cs.span Char.isDigit with
  | mk whole rest =>
      have hrest := mem_span hc h
      rw [hwhole] at hrest
      cases hpart : fraction rest with
      | mk part last =>
          have hlast := mem_fraction hc hrest
          rw [hpart] at hlast
          simp only [decimal?, hwhole, hpart, exponent?_of_mem hc hlast]
          cases natural? 10 (whole ++ part) <;> rfl

/-- Such a character is the same in lower case. -/
theorem toLower_of_isForeign (hc : isForeign c) : c.toLower = c :=
  dif_neg (not_mem_ranges_of_isForeign hc).1

/-- It is in no text without such characters. -/
theorem not_mem_of_all (hc : isForeign c) (h : cs.all (!isForeign ·)) : c ∉ cs := by
  intro hmem
  have hnot := List.all_eq_true.mp h c hmem
  rw [hc] at hnot
  cases hnot

/-- No word of letters is the text, in whatever case. -/
theorem map_toLower_ne (hc : isForeign c) (h : c ∈ cs) {word : String}
    (hword : word.toList.all (!isForeign ·)) : String.ofList (cs.map Char.toLower) ≠ word := by
  rintro rfl
  rw [String.toList_ofList] at hword
  exact not_mem_of_all hc hword (List.mem_map.mpr ⟨c, h, toLower_of_isForeign hc⟩)

/-- No double has such a character in it, be it a word or a decimal. -/
theorem real?_of_mem (hc : isForeign c) (h : c ∈ cs) : real? cs = none := by
  cases hsign : sign cs with
  | mk negative rest =>
      have hrest := mem_sign hc h
      rw [hsign] at hrest
      simp only [real?, hsign]
      split
      · next hword => exact absurd hword (map_toLower_ne hc hrest (by decide))
      · next hword => exact absurd hword (map_toLower_ne hc hrest (by decide))
      · next hword => exact absurd hword (map_toLower_ne hc hrest (by decide))
      · exact decimal?_of_mem hc hrest negative

/-- In lower case such a character is what it was. -/
theorem mem_lowerCaseFrom (hc : isForeign c) (h : c ∈ cs) (before : List Char) :
    c ∈ lowerCaseFrom before cs := by
  induction cs generalizing before with
  | nil => cases h
  | cons d rest ih =>
      rw [lowerCaseFrom, List.mem_append]
      rcases List.mem_cons.mp h with rfl | h
      · rw [if_pos (ne_of_isForeign hc (by decide)), lowerCaseChar,
          if_pos (toNat_lt_of_isForeign hc), toLower_of_isForeign hc]
        exact .inl List.mem_cons_self
      · exact .inr (ih h _)

/-- In lower case a text with such a character is no word. -/
theorem lowerCase_ne (hc : isForeign c) {text word : String} (h : c ∈ text.toList)
    (hword : word.toList.all (!isForeign ·)) : lowerCase text ≠ word := by
  rintro rfl
  rw [lowerCase, String.toList_ofList] at hword
  exact not_mem_of_all hc hword (mem_lowerCaseFrom hc h [])

end Numeral

/-! ## What a text is taken for -/

namespace Variables

/-- The truth value or number that the text of a variable is taken for. -/
def parsed? (text : String) : Option SettingScalar :=
  if lowerCase text = "true" then some (.flag true)
  else if lowerCase text = "false" then some (.flag false)
  else ((Numeral.integer? 10 text.toList).map .integer).or
    ((Numeral.real? text.toList).map .real)

/-- A text is taken for a truth value, an integer or a double. -/
theorem parsed?_cases {text : String} {value : SettingScalar} (h : parsed? text = some value) :
    (∃ flag, value = .flag flag) ∨ (∃ n, value = .integer n) ∨ ∃ x, value = .real x := by
  unfold parsed? at h
  split at h
  · cases h
    exact .inl ⟨true, rfl⟩
  · split at h
    · cases h
      exact .inl ⟨false, rfl⟩
    · rcases Option.or_eq_some_iff.mp h with h | ⟨-, h⟩
      · obtain ⟨n, -, rfl⟩ := Option.map_eq_some_iff.mp h
        exact .inr (.inl ⟨n, rfl⟩)
      · obtain ⟨x, -, rfl⟩ := Option.map_eq_some_iff.mp h
        exact .inr (.inr ⟨x, rfl⟩)

/-- The setting that the text of a variable stands for: what it is taken for, or else a list of its
parts or the text itself. -/
theorem setting_eq (name text : String) :
    setting name text =
      match parsed? text with
      | some value => .scalar value (some .environment)
      | none =>
        if name = listName then
          .list ((Separated.splitString ',' text).map fun part =>
            .scalar (.text part) (some .environment)) (some .environment)
        else .scalar (.text text) (some .environment) := by
  unfold setting parsed?
  generalize lowerCase text = word
  split
  · rfl
  · rfl
  · next htrue hfalse =>
    rw [if_neg htrue, if_neg hfalse]
    cases Numeral.integer? 10 text.toList with
    | some n => rfl
    | none => cases Numeral.real? text.toList <;> rfl

/-- The text that a setting is read as when the text of a variable stands for it. -/
def readBack (text : String) : String :=
  match parsed? text with
  | some (.flag value) => toString value
  | some (.integer value) => toString value
  | some (.real value) => String.ofList (DoubleLayout.plain.write value)
  | _ => text

/-- A variable that is no list is read as the text that it is taken for. -/
theorem asText_setting {name : String} (hname : name ≠ listName) (text : String)
    (path : SettingPath) : (setting name text).asText path = .ok (readBack text) := by
  rw [setting_eq, readBack]
  cases hparsed : parsed? text with
  | none =>
      simp only [if_neg hname]
      rfl
  | some value => rcases parsed?_cases hparsed with ⟨_, rfl⟩ | ⟨_, rfl⟩ | ⟨_, rfl⟩ <;> rfl

/-- Nothing that contains a slash or a comma is taken for a truth value or a number. -/
theorem parsed?_of_mem {text : String} {c : Char} (hc : Numeral.isForeign c)
    (h : c ∈ text.toList) : parsed? text = none := by
  rw [parsed?, if_neg (Numeral.lowerCase_ne hc h (by decide)),
    if_neg (Numeral.lowerCase_ne hc h (by decide)), Numeral.integer?_of_mem hc h,
    Numeral.real?_of_mem hc h]
  rfl

end Variables

/-! ## A setting in a replay -/

namespace Setting

variable {replay : Setting} {settings : ReplaySettings}

/-- A list of texts is read as these texts. -/
theorem asTexts_texts (texts : List String) (source? source'? : Option SettingSource)
    (path : SettingPath) :
    (list (texts.map fun text => scalar (.text text) source?) source'?).asTexts path =
      .ok texts := by
  have hmap (k : Nat) : ((texts.map fun text => scalar (.text text) source?).zipIdx k).mapM
      (fun e => e.1.asText (path ++ [SettingStep.element (Int.ofNat e.2)])) = .ok texts := by
    induction texts generalizing k with
    | nil => rfl
    | cons text rest ih =>
        rw [List.map_cons, List.zipIdx_cons, List.mapM_cons, ih]
        rfl
  exact hmap 0

/-- What a variable sets by name is in the replay, beside what else was there. -/
theorem find?_set_setting (set text : String) (g f : ReplayField) (old? : Option Setting) :
    ((Variables.setting set text).set [.entry g.name] old?).find? f.name =
      if f = g then some (Variables.setting set text) else old?.bind (·.find? f.name) := by
  rw [find?_set, set_nil, mergeInto_of_isTable (SettingLayer.isTable_setting set text)]
  exact if_congr (ReplayField.name_inj.trans eq_comm) rfl rfl

/-- What is no table has no parts with names. -/
theorem find?_of_not_isTable (h : replay.isTable = false) (name : String) :
    replay.find? name = none := by
  cases replay with
  | table entries source? => cases h
  | _ => rfl

open ReplayField in
/-- Setting the input path by name leaves the other settings of a table. Settings that are named by
their place in a list are lost. -/
theorem asReplay_set_inputPath (h : replay.asReplay [.entry "replay"] = .ok settings)
    (text : String) :
    ((Variables.setting "replay.input_path" text).set [.entry inputPath.name]
        (some replay)).asReplay [.entry "replay"] =
      .ok (if replay.isTable then { settings with inputPath := Variables.readBack text }
        else { inputPath := Variables.readBack text }) := by
  rw [asReplay_eq_ok_iff (isTable_set_entry _ _ _ _)]
  intro f
  rw [find?_set_setting, Option.bind_some]
  by_cases hf : f = inputPath
  · rw [if_pos hf, hf]
    refine (Variables.asText_setting (by decide) text _).trans ?_
    split <;> rfl
  · rw [if_neg hf]
    split
    · next htable =>
      refine ((asReplay_eq_ok_iff htable).mp h f).trans ?_
      cases f with
      | inputPath => exact absurd rfl hf
      | _ => rfl
    · next hnot =>
      rw [find?_of_not_isTable (Bool.not_eq_true _ ▸ hnot)]
      cases f with
      | inputPath => exact absurd rfl hf
      | _ => rfl

open ReplayField in
/-- Settings that were loaded have a flag that is read, and if they have names a path that is
read. -/
theorem exists_optionally (h : replay.asReplay [.entry "replay"] = .ok settings) :
    ∃ path? end?, optionally (asText inputPath.path) (replay.find? inputPath.name) = .ok path? ∧
      optionally (asFlag completesAtEnd.path) (replay.find? completesAtEnd.name) = .ok end? ∧
      if replay.isTable then
        path? = some settings.inputPath ∧ end?.getD true = settings.completesAtEnd
      else path? = none := by
  by_cases htable : replay.isTable
  · rw [asReplay_of_isTable htable] at h
    obtain ⟨path?, hpath, h⟩ := bind_eq_ok_iff.mp h
    obtain ⟨end?, hend, h⟩ := bind_eq_ok_iff.mp h
    obtain ⟨ids?, -, h⟩ := bind_eq_ok_iff.mp h
    cases path? with
    | none => cases h
    | some path =>
        cases h
        exact ⟨some path, end?, hpath, hend, by rw [if_pos htable]; exact ⟨rfl, rfl⟩⟩
  · have hnot : replay.isTable = false := by simpa using htable
    refine ⟨none, none, ?_, ?_, by rw [if_neg htable]⟩
    · rw [find?_of_not_isTable hnot, optionally]
    · rw [find?_of_not_isTable hnot, optionally]

open ReplayField in
/-- Setting the connections by name gives the parts of the text, unless the text is taken for
something that is no list. -/
theorem asReplay_set_connections (h : replay.asReplay [.entry "replay"] = .ok settings)
    (text : String) :
    ((Variables.setting Variables.listName text).set [.entry connections.name]
        (some replay)).asReplay [.entry "replay"] =
      match Variables.parsed? text with
      | some value => .error (.mismatch (.scalar value (some .environment)) .list connections.path)
      | none =>
        if replay.isTable then
          .ok { settings with connections := Separated.splitString ',' text }
        else .error (.missing inputPath.path) := by
  obtain ⟨path?, end?, hpath, hend, hkept⟩ := exists_optionally h
  rw [asReplay_of_isTable (isTable_set_entry _ _ _ _), find?_set_setting, find?_set_setting,
    find?_set_setting, if_neg (by decide), if_neg (by decide), if_pos rfl, Option.bind_some,
    Option.bind_some, hpath, hend, Variables.setting_eq]
  cases Variables.parsed? text with
  | some value => rfl
  | none =>
      simp only [if_pos, optionally, asTexts_texts]
      by_cases htable : replay.isTable
      · rw [if_pos htable] at hkept ⊢
        obtain ⟨rfl, hend'⟩ := hkept
        rw [← hend']
        rfl
      · rw [if_neg htable] at hkept ⊢
        rw [hkept]
        rfl

end Setting

/-! ## Loading with one variable more -/

/-- No entry of the source leads to the replay, or into it. -/
def SettingLayer.Spares (layer : SettingLayer) : Prop :=
  ∀ entry ∈ layer, ∀ rest, SettingPath.ofName entry.1 ≠ .entry "replay" :: rest

/-- A source that spares the replay leaves it as it was. -/
theorem SettingLayer.find?_overlay_of_spares {layer : SettingLayer} (h : layer.Spares)
    (s : Setting) : (s.overlay layer).find? "replay" = s.find? "replay" := by
  induction layer generalizing s with
  | nil => rfl
  | cons entry rest ih =>
      obtain ⟨first, path, hpath⟩ := SettingPath.exists_ofName entry.1
      have hfirst : first ≠ "replay" := by
        rintro rfl
        exact h entry List.mem_cons_self path hpath
      rw [Setting.overlay_cons, ih fun e he => h e (List.mem_cons_of_mem _ he), hpath,
        Setting.find?_set, if_neg hfirst, Option.bind_some]

namespace Settings

variable {yaml : Yaml.Reader} {folder : Folder} {before after : Variables} {settings : Settings}

/-- The replay as all sources together have it. -/
def replay? (yaml : Yaml.Reader) (folder : Folder) (vars : Variables) : Option Setting :=
  match Settings.layers yaml folder vars with
  | .ok layers => (layers.foldl Setting.overlay (.table [] none)).find? "replay"
  | .error _ => none

/-- A variable more that sets one of the settings sets it in the replay that there was, if no later
one leads to the replay. -/
theorem load_insert {name set : String} {g : ReplayField}
    (h : load yaml folder (before ++ after) = .ok settings) (hafter : after.settingLayer.Spares)
    (hname : Variables.settingName? name = some set) (hpath : SettingPath.ofName set = g.path)
    (text : String) :
    ∃ replay, replay? yaml folder (before ++ after) = some replay ∧
      replay.asReplay [.entry "replay"] = .ok settings.replay ∧
      load yaml folder (before ++ (name, text) :: after) =
        (((Variables.setting set text).set [.entry g.name] (some replay)).asReplay
          [.entry "replay"]).map Settings.mk := by
  obtain ⟨_, hlayers, hread⟩ := bind_eq_ok_iff.mp h
  obtain ⟨deployment, common, special, hsources, rfl⟩ := layers_eq_ok_iff.mp hlayers
  have hlayers' := layers_eq_ok_iff.mpr ⟨deployment, common, special,
    hsources.insert_variable (Variables.ne_variableName hname hpath) text, rfl⟩
  rw [Variables.settingLayer_append] at hlayers hread
  rw [Variables.settingLayer_insert hname] at hlayers'
  -- the settings before the later variables, which leave the replay alone
  let below :=
    (((Setting.table [] none).overlay common).overlay special).overlay before.settingLayer
  have hmerged : (([common, special, before.settingLayer ++ after.settingLayer].foldl
      Setting.overlay (.table [] none)).find? "replay") = below.find? "replay" :=
    (congrArg _ (Setting.overlay_append _ _ _)).trans
      (SettingLayer.find?_overlay_of_spares hafter below)
  have hreplay? : replay? yaml folder (before ++ after) = below.find? "replay" := by
    rw [replay?, hlayers]
    exact hmerged
  have hload : load yaml folder (before ++ (name, text) :: after) =
      ofSetting (((Variables.setting set text).set g.path (some below)).overlay
        after.settingLayer) := by
    rw [load, hlayers', ← hpath,
      ← Setting.overlay_cons below (set, Variables.setting set text), ← Setting.overlay_append]
    rfl
  cases hreplay : below.find? "replay" with
  | none =>
      change ofSetting _ = _ at hread
      rw [ofSetting, hmerged, hreplay] at hread
      cases hread
  | some replay =>
      refine ⟨replay, hreplay?.trans hreplay, ?_, ?_⟩
      · change ofSetting _ = _ at hread
        rw [ofSetting_of_find? (hmerged.trans hreplay), map_eq_ok_iff] at hread
        obtain ⟨_, hread, rfl⟩ := hread
        exact hread
      · rw [hload, ofSetting_of_find?]
        rw [SettingLayer.find?_overlay_of_spares hafter, ReplayField.path, Setting.find?_set,
          if_pos rfl, Option.bind_some, hreplay]

/-- The input path is what the text of its variable is taken for, written out. -/
theorem load_insert_inputPath (h : load yaml folder (before ++ after) = .ok settings)
    (hafter : after.settingLayer.Spares) (text : String) :
    load yaml folder (before ++ ("APP_REPLAY__INPUT_PATH", text) :: after) =
      .ok ⟨if (replay? yaml folder (before ++ after)).any Setting.isTable then
        { settings.replay with inputPath := Variables.readBack text }
        else { inputPath := Variables.readBack text }⟩ := by
  have hname : Variables.settingName? "APP_REPLAY__INPUT_PATH" = some "replay.input_path" := by
    decide
  have hpath : SettingPath.ofName "replay.input_path" = ReplayField.inputPath.path := by decide
  obtain ⟨replay, hreplay, hsettings, hload⟩ := load_insert h hafter hname hpath text
  rw [hload, Setting.asReplay_set_inputPath hsettings, hreplay]
  rfl

/-- The connections are the parts of the text of their variable, if it is taken for text. -/
theorem load_insert_connections (h : load yaml folder (before ++ after) = .ok settings)
    (hafter : after.settingLayer.Spares) (text : String) :
    load yaml folder (before ++ ("APP_REPLAY__CONNECTION_IDS", text) :: after) =
      match Variables.parsed? text with
      | some value => .error
          (.mismatch (.scalar value (some .environment)) .list ReplayField.connections.path)
      | none =>
        if (replay? yaml folder (before ++ after)).any Setting.isTable then
          .ok ⟨{ settings.replay with connections := Separated.splitString ',' text }⟩
        else .error (.missing ReplayField.inputPath.path) := by
  have hname : Variables.settingName? "APP_REPLAY__CONNECTION_IDS" = some Variables.listName := by
    decide
  have hpath : SettingPath.ofName Variables.listName = ReplayField.connections.path := by decide
  obtain ⟨replay, hreplay, hsettings, hload⟩ := load_insert h hafter hname hpath text
  rw [hload, Setting.asReplay_set_connections hsettings, hreplay, Option.any_some]
  cases Variables.parsed? text with
  | some value => rfl
  | none => cases replay.isTable <;> rfl

/-- Without variables there are no settings but those of the common file. -/
theorem layers_sampleFolder :
    Settings.layers Yaml.documents? sampleFolder [] = .ok [sampleCommonLayer, [], []] := by
  have hspecial : sampleFolder.settingsFile? (fileName Deployment.prod.name) = none := by decide
  exact layers_eq_ok_iff.mpr ⟨.prod, _, _,
    ⟨rfl, settingLayer?_sampleCommon, by rw [Folder.settingLayer?, hspecial]; rfl⟩, rfl⟩

/-- The common file is enough to load settings. -/
theorem load_sampleFolder :
    load Yaml.documents? sampleFolder ([] ++ []) = .ok ⟨"events.ndjson", true, ["a", "b"]⟩ := by
  rw [List.append_nil, load, layers_sampleFolder]
  rfl

theorem spares_nil : SettingLayer.Spares (Variables.settingLayer []) := fun _ h => nomatch h

/-- A text in a variable becomes the input path in the spelling of what it is taken for, and texts
that are joined by commas become the connections, unless they are one text that is taken for a truth
value or a number: that is no list. Whatever contains a character that stands in no word and in no
numeral, such as a slash or the comma between two texts, is taken as it is written. Settings that
were named by their place in a list are lost as soon as one is named, the input path among them. -/
theorem load_variable (h : load yaml folder (before ++ after) = .ok settings)
    (hafter : after.settingLayer.Spares) :
    let isTable := (replay? yaml folder (before ++ after)).any Setting.isTable
    (∀ text, load yaml folder (before ++ ("APP_REPLAY__INPUT_PATH", text) :: after) =
      .ok ⟨if isTable then { settings.replay with inputPath := Variables.readBack text }
        else { inputPath := Variables.readBack text }⟩) ∧
      (∀ ids : List String, ids ≠ [] → (∀ id ∈ ids, ',' ∉ id.toList) →
        load yaml folder (before ++ ("APP_REPLAY__CONNECTION_IDS", ",".intercalate ids) :: after) =
          match Variables.parsed? (",".intercalate ids) with
          | some value => .error
              (.mismatch (.scalar value (some .environment)) .list ReplayField.connections.path)
          | none =>
            if isTable then .ok ⟨{ settings.replay with connections := ids }⟩
            else .error (.missing ReplayField.inputPath.path)) ∧
      (∀ ids : List String, 2 ≤ ids.length → Variables.parsed? (",".intercalate ids) = none) ∧
      ∀ text c, c ∈ text.toList → Numeral.isForeign c →
        Variables.parsed? text = none ∧ Variables.readBack text = text := by
  intro isTable
  refine ⟨load_insert_inputPath h hafter, fun ids hne hids => ?_, fun ids hlength => ?_,
    fun text c hmem hc => ?_⟩
  · rw [load_insert_connections h hafter, Separated.splitString_intercalate hne hids]
  · exact Variables.parsed?_of_mem (by decide) (Separated.comma_mem_intercalate hlength)
  · have hnone := Variables.parsed?_of_mem hc hmem
    exact ⟨hnone, by rw [Variables.readBack, hnone]⟩

/-- A path and two connections, one of them a number. -/
theorem load_variable_of_texts :
    load Yaml.documents? sampleFolder [] = .ok ⟨"events.ndjson", true, ["a", "b"]⟩ ∧
      load Yaml.documents? sampleFolder [("APP_REPLAY__INPUT_PATH", "logs/007")] =
        .ok ⟨"logs/007", true, ["a", "b"]⟩ ∧
      load Yaml.documents? sampleFolder
          [("APP_REPLAY__CONNECTION_IDS", ",".intercalate ["42", "c"])] =
        .ok ⟨"events.ndjson", true, ["42", "c"]⟩ := by
  have htable : (replay? Yaml.documents? sampleFolder ([] ++ [])).any Setting.isTable = true := by
    rw [List.append_nil, replay?, layers_sampleFolder]
    rfl
  obtain ⟨hpath, hids, hlist, htext⟩ := load_variable load_sampleFolder spares_nil
  rw [htable] at hpath hids
  refine ⟨load_sampleFolder, ?_, ?_⟩
  · refine (hpath "logs/007").trans ?_
    rw [(htext "logs/007" '/' (by decide) (by decide)).2, if_pos rfl]
  · refine (hids ["42", "c"] (by decide) (by decide)).trans ?_
    rw [hlist ["42", "c"] (by decide)]
    exact if_pos rfl

/-- A number is neither kept as the text of an input path nor loaded as a list of one connection. -/
theorem not_load_variable_kept :
    ¬ (∀ folder settings (text : String), load Yaml.documents? folder [] = .ok settings →
        text ≠ "" → '\x00' ∉ text.toList →
        ∃ settings', load Yaml.documents? folder [("APP_REPLAY__INPUT_PATH", text)] =
          .ok settings' ∧ settings'.replay.inputPath = text) ∧
      ¬ ∀ folder settings (ids : List String), load Yaml.documents? folder [] = .ok settings →
        ids ≠ [] → (∀ id ∈ ids, id ≠ "" ∧ ',' ∉ id.toList) →
        ∃ settings', load Yaml.documents? folder
            [("APP_REPLAY__CONNECTION_IDS", ",".intercalate ids)] =
          .ok settings' ∧ settings'.replay.connections = ids := by
  constructor
  · intro hall
    obtain ⟨settings', hload', hpath⟩ :=
      hall sampleFolder _ "007" load_sampleFolder (by decide) (by decide)
    have hseven : Variables.parsed? "007" = some (.integer 7) := by decide +kernel
    have hloaded := load_insert_inputPath load_sampleFolder spares_nil "007"
    rw [Variables.readBack, hseven, List.nil_append] at hloaded
    rw [Except.ok.inj (hload'.symm.trans hloaded)] at hpath
    have hwritten : toString (7 : Int) ≠ "007" := by decide
    split at hpath <;> exact hwritten hpath
  · intro hall
    obtain ⟨settings', hload', -⟩ :=
      hall sampleFolder _ ["42"] load_sampleFolder (by decide) (by decide)
    have hnumber : Variables.parsed? "42" = some (.integer 42) := by decide +kernel
    have hloaded := load_insert_connections load_sampleFolder spares_nil "42"
    have hone : ",".intercalate ["42"] = "42" := by decide
    rw [hnumber, List.nil_append] at hloaded
    rw [hone] at hload'
    cases hload'.symm.trans hloaded

end Settings

end StreamWatch
