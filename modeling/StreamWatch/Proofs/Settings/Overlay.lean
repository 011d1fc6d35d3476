import Mathlib.Data.List.Induction
import StreamWatch.Settings.Load

/-!
# What the sources say of a setting

A source names the settings of the replay in several ways: `replay` as a whole, one setting by its
path, or an element of a list. `SettingLayer.tells` is what one source says of one setting, looking
at nothing else. Laying the sources over one another leaves what the last source says that says
anything: `field?_foldl_overlay`.
-/

namespace StreamWatch

/-! ## The settings of a replay -/

/-- The settings of a replay, each on its own. -/
inductive ReplayField where
  | inputPath
  | completesAtEnd
  | connections
deriving DecidableEq

namespace ReplayField

/-- The name of the setting in a table. -/
def name : ReplayField → String
  | inputPath => "input_path"
  | completesAtEnd => "force_complete_on_eof"
  | connections => "connection_ids"

/-- The path of the setting. -/
def path (f : ReplayField) : SettingPath := [.entry "replay", .entry f.name]

/-- The settings of a replay are told apart by their names. -/
theorem name_inj {f g : ReplayField} : f.name = g.name ↔ f = g := by
  cases f <;> cases g <;> decide

/-- What is known of the setting after a source set one more path: the replay as a whole may have
it, the path may lead to it, or into it. -/
def hearAt (f : ReplayField) (value : Setting) (said? : Option Setting) :
    SettingPath → Option Setting
  | [.entry "replay"] => (value.find? f.name).or said?
  | [.entry "replay", .entry name] => if name = f.name then some value else said?
  | .entry "replay" :: .entry name :: step :: path =>
    if name = f.name then some (value.set (step :: path) said?) else said?
  | _ => said?

/-- What is known of the setting after one more entry of a source. -/
def hear (f : ReplayField) (said? : Option Setting) (entry : String × Setting) : Option Setting :=
  f.hearAt entry.2 said? (SettingPath.ofName entry.1)

end ReplayField

/-- What a source says of a setting of the replay. -/
def SettingLayer.tells (layer : SettingLayer) (f : ReplayField) : Option Setting :=
  layer.foldl f.hear none

/-- What the settings have for a setting of the replay. -/
def Setting.field? (s : Setting) (f : ReplayField) : Option Setting :=
  (s.find? "replay").bind (·.find? f.name)

/-! ## Sources that keep to the shape of the settings -/

namespace Setting

/-- Whether a setting is a table. -/
def isTable : Setting → Bool
  | table _ _ => true
  | _ => false

/-- The names of a table differ from one another. -/
def NamesDiffer : Setting → Prop
  | table entries _ => (entries.map (·.1)).Nodup
  | _ => True

/-- What is set at a path leaves the replay a table, and makes none of its settings a table. -/
def PlainAt (value : Setting) : SettingPath → Prop
  | [.entry "replay"] =>
    value.isTable ∧ ∀ f : ReplayField, ∀ part ∈ value.find? f.name, part.isTable = false
  | .entry "replay" :: .element _ :: _ => False
  | [.entry "replay", .entry name] => ∀ f : ReplayField, name = f.name → value.isTable = false
  | .entry "replay" :: .entry name :: .entry _ :: _ => ∀ f : ReplayField, name ≠ f.name
  | _ => True

end Setting

namespace SettingLayer

/-- The source has the replay, if at all, as a table, and none of its settings as one. -/
def Plain (layer : SettingLayer) : Prop :=
  ∀ entry ∈ layer, entry.2.PlainAt (SettingPath.ofName entry.1)

/-- The tables that the source sets name everything once. -/
def NamesDiffer (layer : SettingLayer) : Prop := ∀ entry ∈ layer, entry.2.NamesDiffer

/-- The source sets an element of the list that a setting is, rather than the setting. -/
def Reaches (layer : SettingLayer) (f : ReplayField) : Prop :=
  ∃ entry ∈ layer, ∃ index path,
    SettingPath.ofName entry.1 = .entry "replay" :: .entry f.name :: .element index :: path

/-- A source on top of others replaces a setting as a whole: it does not set an element of a list
that one of them sets. -/
def ReplacedWhole (layers : List SettingLayer) (f : ReplayField) : Prop :=
  layers.Pairwise fun lower higher => higher.Reaches f → lower.tells f = none

/-- Names that lead to a setting at most, and not into it, replace settings whole. -/
theorem replacedWhole_of_length_le {layers : List SettingLayer} {f : ReplayField}
    (h : ∀ layer ∈ layers, ∀ entry ∈ layer, (SettingPath.ofName entry.1).length ≤ 2) :
    ReplacedWhole layers f := by
  refine List.pairwise_of_forall_mem_list fun lower _ higher hhigher hreaches => ?_
  obtain ⟨entry, hentry, index, path, hpath⟩ := hreaches
  have hlength := h higher hhigher entry hentry
  rw [hpath] at hlength
  simp at hlength

end SettingLayer

/-! ## Merging -/

namespace Setting

/-- What is no table is replaced by an empty one. -/
theorem find?_asTable (old? : Option Setting) (name : String) :
    Table.find? name (asTable old?).1 = old?.bind (·.find? name) := by
  cases old? with
  | none => rfl
  | some old => cases old <;> rfl

/-- What is no table replaces what was there. -/
theorem mergeInto_of_isTable {value : Setting} (h : value.isTable = false)
    (old? : Option Setting) : mergeInto old? value = value := by
  cases value with
  | scalar value source? => rw [mergeInto]; simp
  | list elements source? => rw [mergeInto]; simp
  | table entries source? => cases h

/-- Merged entries have what the new ones have, and else what was there. -/
theorem find?_mergeEntries {new : List (String × Setting)} (h : (new.map (·.1)).Nodup)
    (present : List (String × Setting)) (name : String) :
    Table.find? name (mergeEntries present new) =
      ((Table.find? name new).map (mergeInto (Table.find? name present))).or
        (Table.find? name present) := by
  induction new generalizing present with
  | nil => rw [mergeEntries, Table.find?, Option.map_none, Option.none_or]
  | cons entry rest ih =>
      obtain ⟨key, value⟩ := entry
      rw [List.map_cons, List.nodup_cons] at h
      rw [mergeEntries, ih h.2, Table.find?_putIn, Table.find?]
      by_cases hkey : key = name
      · subst hkey
        have hrest : Table.find? key rest = none := by
          by_contra hfound
          exact h.1 ((Table.mem_keys_iff_find? key rest).mpr hfound)
        simp [hrest]
      · simp [hkey]

/-- A table that is merged into anything is a table. -/
theorem isTable_mergeInto {value : Setting} (h : value.isTable) (old? : Option Setting) :
    (mergeInto old? value).isTable := by
  cases value with
  | table entries source? =>
      rw [mergeInto]
      rfl
  | _ => cases h

/-- A table that is merged has its own entries, unless they are tables themselves, and those that
were there. -/
theorem find?_mergeInto {value : Setting} (hvalue : value.isTable) (hnames : value.NamesDiffer)
    {name : String} (hpart : ∀ part ∈ value.find? name, part.isTable = false)
    (old? : Option Setting) :
    (mergeInto old? value).find? name =
      (value.find? name).or (old?.bind (·.find? name)) := by
  cases value with
  | table entries source? =>
      rw [mergeInto]
      change Table.find? name (mergeEntries (asTable old?).1 entries) = _
      rw [find?_mergeEntries hnames, find?_asTable]
      congr 1
      change Option.map _ (find? name (table entries source?)) = find? name (table entries source?)
      cases hfound : find? name (table entries source?) with
      | none => rfl
      | some part => exact congrArg some (mergeInto_of_isTable (hpart part hfound) _)
  | _ => cases hvalue

/-! ## Setting one part -/

/-- Setting a part below one entry of a table leaves the other entries alone. -/
theorem find?_set (value : Setting) (key name : String) (path : SettingPath)
    (old? : Option Setting) :
    (value.set (.entry key :: path) old?).find? name =
      if key = name then some (value.set path (old?.bind (·.find? key)))
      else old?.bind (·.find? name) := by
  rw [set]
  change Table.find? name (Table.putIn key (value.set path (Table.find? key (asTable old?).1))
    (asTable old?).1) = _
  rw [Table.find?_putIn, find?_asTable, find?_asTable]

theorem set_nil (value : Setting) (old? : Option Setting) :
    value.set [] old? = mergeInto old? value := by
  rw [set]

/-- Setting a part of a table gives a table, whatever was there. -/
theorem isTable_set_entry (value : Setting) (key : String) (path : SettingPath)
    (old? : Option Setting) : (value.set (.entry key :: path) old?).isTable := by
  rw [set]
  rfl

end Setting

/-! ## Sources on top of one another -/

namespace Setting

/-- The entries of a source are set one after the other. -/
theorem overlay_cons (s : Setting) (entry : String × Setting) (rest : SettingLayer) :
    s.overlay (entry :: rest) = (entry.2.set (SettingPath.ofName entry.1) (some s)).overlay rest :=
  rfl

theorem overlay_append (s : Setting) (before after : SettingLayer) :
    s.overlay (before ++ after) = (s.overlay before).overlay after :=
  List.foldl_append

end Setting

/-- A path of which the first step was begun with a name begins with a name. -/
theorem SettingPath.exists_of_steps? {text cs : List Char} {path : SettingPath}
    (h : steps? (.entry text) cs = some path) : ∃ name rest, path = .entry name :: rest := by
  induction cs generalizing text with
  | nil =>
      rw [steps?] at h
      split at h
      · cases h
      · exact ⟨_, _, (Option.some.inj h).symm⟩
  | cons c cs ih =>
      unfold steps? at h
      split at h
      · exact ih h
      · split at h
        · obtain ⟨rest, -, hrest⟩ := Option.map_eq_some_iff.mp h
          exact ⟨_, _, hrest.symm⟩
        · cases h

/-- No name leads to an element of the settings as a whole. -/
theorem SettingPath.exists_ofName (name : String) :
    ∃ first rest, ofName name = .entry first :: rest := by
  rw [ofName]
  cases h : steps? (.entry []) name.toList with
  | none => exact ⟨name, [], rfl⟩
  | some path => exact exists_of_steps? h

namespace Setting

variable {value : Setting} {first name : String} {path : SettingPath}

/-- The replay stays a table, or absent. -/
theorem isTable_replay_set (hplain : value.PlainAt (.entry first :: path)) {s : Setting}
    (hs : ∀ replay ∈ s.find? "replay", replay.isTable) :
    ∀ replay ∈ (value.set (.entry first :: path) (some s)).find? "replay", replay.isTable := by
  intro replay hreplay
  rw [find?_set] at hreplay
  split at hreplay
  · next hfirst =>
    subst hfirst
    cases hreplay
    match path with
    | [] =>
        rw [set_nil]
        exact isTable_mergeInto hplain.1 _
    | .entry key :: rest => exact isTable_set_entry value key rest _
    | .element index :: rest => exact hplain.elim
  · exact hs replay hreplay

/-- What the settings have for a setting after one more path was set depends on what they had for
it, and on nothing else. -/
theorem field?_set (hplain : value.PlainAt (.entry first :: path)) (hnames : value.NamesDiffer)
    (s : Setting) (f : ReplayField) :
    (value.set (.entry first :: path) (some s)).field? f =
      f.hearAt value (s.field? f) (.entry first :: path) := by
  rw [field?, find?_set]
  by_cases hfirst : first = "replay"
  · subst hfirst
    rw [if_pos rfl, Option.bind_some]
    match path with
    | [] =>
        rw [set_nil]
        exact find?_mergeInto hplain.1 hnames (hplain.2 f) _
    | [.entry key] =>
        rw [find?_set, ReplayField.hearAt]
        refine ite_congr rfl (fun hkey => ?_) fun _ => rfl
        rw [set_nil, mergeInto_of_isTable (hplain f hkey)]
    | .entry key :: step :: rest =>
        rw [find?_set, ReplayField.hearAt]
        refine ite_congr rfl (fun hkey => ?_) fun _ => rfl
        rw [hkey]
        rfl
    | .element index :: rest => exact hplain.elim
  · rw [if_neg hfirst]
    unfold ReplayField.hearAt
    split <;> simp_all [field?]

end Setting

namespace SettingLayer

variable {layer : SettingLayer} {f : ReplayField}

/-- A source on top leaves the replay a table, or absent. -/
theorem isTable_replay_overlay (hplain : layer.Plain) {s : Setting}
    (hs : ∀ replay ∈ s.find? "replay", replay.isTable) :
    ∀ replay ∈ (s.overlay layer).find? "replay", replay.isTable := by
  induction layer generalizing s with
  | nil => exact hs
  | cons entry rest ih =>
      obtain ⟨first, path, hpath⟩ := SettingPath.exists_ofName entry.1
      have hentry := hplain entry List.mem_cons_self
      rw [hpath] at hentry
      rw [Setting.overlay_cons, hpath]
      exact ih (fun e he => hplain e (List.mem_cons_of_mem _ he))
        (Setting.isTable_replay_set hentry hs)

/-- A source on top is heard entry by entry. -/
theorem field?_overlay (hplain : layer.Plain) (hnames : layer.NamesDiffer) (s : Setting)
    (f : ReplayField) : (s.overlay layer).field? f = layer.foldl f.hear (s.field? f) := by
  induction layer generalizing s with
  | nil => rfl
  | cons entry rest ih =>
      obtain ⟨first, path, hpath⟩ := SettingPath.exists_ofName entry.1
      have hentry := hplain entry List.mem_cons_self
      have hset : (entry.2.set (SettingPath.ofName entry.1) (some s)).field? f =
          f.hear (s.field? f) entry := by
        rw [ReplayField.hear]
        rw [hpath] at hentry ⊢
        exact Setting.field?_set hentry (hnames entry List.mem_cons_self) s f
      rw [List.foldl_cons, ← hset, Setting.overlay_cons]
      exact ih (fun e he => hplain e (List.mem_cons_of_mem _ he))
        (fun e he => hnames e (List.mem_cons_of_mem _ he)) _

/-- An entry that does not set an element does not look at what the setting was. -/
theorem hear_or {entry : String × Setting} (hplain : entry.2.PlainAt (SettingPath.ofName entry.1))
    (hreach : ∀ index path, SettingPath.ofName entry.1 ≠
      .entry "replay" :: .entry f.name :: .element index :: path) (said? below? : Option Setting) :
    f.hear (said?.or below?) entry = (f.hear said? entry).or below? := by
  rw [ReplayField.hear, ReplayField.hear]
  generalize SettingPath.ofName entry.1 = path at hplain hreach
  match path with
  | .entry first :: rest =>
      by_cases hfirst : first = "replay"
      · subst hfirst
        match rest with
        | [] => exact Option.or_assoc.symm
        | [.entry key] =>
            rw [ReplayField.hearAt, ReplayField.hearAt]
            split <;> rfl
        | .entry key :: .entry next :: rest =>
            rw [ReplayField.hearAt, ReplayField.hearAt, if_neg (hplain f), if_neg (hplain f)]
        | .entry key :: .element index :: rest =>
            have hkey : key ≠ f.name := fun hkey => hreach index rest (hkey ▸ rfl)
            rw [ReplayField.hearAt, ReplayField.hearAt, if_neg hkey, if_neg hkey]
        | .element index :: rest => exact hplain.elim
      · unfold ReplayField.hearAt
        split <;> simp_all
  | [] => rfl
  | .element index :: rest => rfl

/-- A source that does not set elements has the last word on what it says, and leaves the rest. -/
theorem foldl_hear_or (hplain : layer.Plain) (hreach : ¬ layer.Reaches f)
    (said? below? : Option Setting) :
    layer.foldl f.hear (said?.or below?) = (layer.foldl f.hear said?).or below? := by
  induction layer generalizing said? with
  | nil => rfl
  | cons entry rest ih =>
      rw [List.foldl_cons, List.foldl_cons, hear_or (hplain entry List.mem_cons_self)]
      · refine ih (fun e he => hplain e (List.mem_cons_of_mem _ he)) ?_ _
        rintro ⟨e, he, hpath⟩
        exact hreach ⟨e, List.mem_cons_of_mem _ he, hpath⟩
      · intro index path hpath
        exact hreach ⟨entry, List.mem_cons_self, index, path, hpath⟩

/-- Sources on top of one another leave the replay a table, or absent. -/
theorem isTable_replay_foldl_overlay {layers : List SettingLayer}
    (hplain : ∀ layer ∈ layers, layer.Plain) :
    ∀ replay ∈ (layers.foldl Setting.overlay (.table [] none)).find? "replay", replay.isTable := by
  induction layers using List.reverseRecOn with
  | nil => exact fun _ h => nomatch h
  | append_singleton layers layer ih =>
      rw [List.foldl_append]
      exact isTable_replay_overlay (hplain layer (by simp)) (ih fun l hl => hplain l (by simp [hl]))

/-- Sources on top of one another leave of a setting what the last source says that says anything
of it. -/
theorem field?_foldl_overlay {layers : List SettingLayer} (hplain : ∀ layer ∈ layers, layer.Plain)
    (hnames : ∀ layer ∈ layers, layer.NamesDiffer) (hwhole : ReplacedWhole layers f) :
    (layers.foldl Setting.overlay (.table [] none)).field? f =
      layers.reverse.findSome? (·.tells f) := by
  induction layers using List.reverseRecOn with
  | nil => rfl
  | append_singleton layers layer ih =>
      obtain ⟨hbelow, -, hlayer⟩ := List.pairwise_append.mp hwhole
      have hbelow := ih (fun l hl => hplain l (by simp [hl])) (fun l hl => hnames l (by simp [hl]))
        hbelow
      have hlayerPlain := hplain layer (by simp)
      rw [List.foldl_append, List.foldl_cons, List.foldl_nil,
        field?_overlay hlayerPlain (hnames layer (by simp)), hbelow, List.reverse_append]
      change _ = List.findSome? _ (layer :: layers.reverse)
      rw [List.findSome?_cons]
      by_cases hreach : layer.Reaches f
      · -- nothing below says anything of the setting
        have hnone : layers.reverse.findSome? (·.tells f) = none := by
          rw [List.findSome?_eq_none_iff]
          intro l hl
          exact hlayer l (List.mem_reverse.mp hl) layer (by simp) hreach
        rw [hnone]
        change layer.tells f = _
        cases layer.tells f <;> rfl
      · rw [← Option.none_or (o := layers.reverse.findSome? _), foldl_hear_or hlayerPlain hreach]
        change (layer.tells f).or _ = _
        cases layer.tells f <;> rfl

end SettingLayer

end StreamWatch
