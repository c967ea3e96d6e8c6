import DashPlatform.Dashmate.MigratedConfigs

/-! # Files that are migrated

A file is migrated by one migration after the other. What each of them needs is known from the file that is migrated: the
migration to 0.18.0 makes options, the one to 0.19.0 the consensus options and the local config. -/

namespace Dashmate
open Json Migrations

variable {home : String} {c c' c₀ : Json} {file file' file₀ : ConfigFile} {d18 d19 : Prop}

/-! ### Configs -/

/-- An option is there when the migrations of 0.18.0 and of 0.19.0 are done, if they are. -/
def Ready (d18 d19 : Prop) (c : Json) (path : List String) : Prop :=
  c.Present path ∨ d18 ∧ path ∈ imagePaths ∨ d19 ∧ path = consensusPath

theorem ready_false_iff {path : List String} : Ready False False c path ↔ c.Present path := by simp [Ready]

/-- What is left of a config by the migrations. -/
structure Follows (d18 d19 : Prop) (c₀ c : Json) : Prop where
  root : c.kindAt [] = .nested
  groups : ∀ path ∈ groupPaths, c.kindAt path ≠ .plain
  present_iff : ∀ path ∈ neededPaths, c.Present path ↔ Ready d18 d19 c₀ path
  group : isInLocalGroup c = isInLocalGroup c₀

/-- A config of any format. -/
def Grouped (c : Json) : Prop := c.kindAt [] = .nested ∧ ∀ path ∈ groupPaths, c.kindAt path ≠ .plain

theorem Follows.refl (h : Grouped c) : Follows False False c c := ⟨h.1, h.2, fun _ _ => ready_false_iff.symm, rfl⟩

theorem groupPaths_subset : ∀ path ∈ groupPaths, path ∈ neededPaths ∧ path ≠ consensusPath := by decide

theorem Follows.same (h : Follows d18 d19 c₀ c) (hsame : Same c c') : Follows d18 d19 c₀ c' where
  root := hsame.root.trans h.root
  groups path hpath := by
    rw [hsame.kinds path (groupPaths_subset path hpath).1]
    exact h.groups path hpath
  present_iff path hpath := (hsame.present_iff hpath).trans (h.present_iff path hpath)
  group := hsame.group.trans h.group

theorem Follows.setImages (h : Follows False False c₀ c) :
    Follows True False c₀ (setImages (SystemConfigs.baseConfig home) c) := by
  have hkind : ∀ path ∈ neededPaths, _ := fun path hpath => kindAt_setImages home c hpath
  refine ⟨?_, fun path hpath => ?_, fun path hpath => ?_, ?_⟩
  · exact kindAt_lodashSet _ _ _ _
  · rw [hkind path (groupPaths_subset path hpath).1]
    split
    · exact nofun
    · exact h.groups path hpath
  · have hbefore := (h.present_iff path hpath).trans ready_false_iff
    unfold Ready
    rw [← hbefore]
    unfold Present
    rw [hkind path hpath]
    split <;> simp_all
  · rw [← h.group]
    unfold isInLocalGroup Migrations.setImages
    simp [get?_lodashSet]

theorem Follows.withConsensus (h : Follows d18 False c₀ c) (hwith : WithConsensus c c') : Follows d18 True c₀ c' := by
  refine ⟨hwith.root.trans h.root, fun path hpath => ?_, fun path hpath => ?_, hwith.group.trans h.group⟩
  · obtain ⟨hneeded, hne⟩ := groupPaths_subset path hpath
    rw [hwith.kinds path hneeded hne]
    exact h.groups path hpath
  · by_cases hconsensus : path = consensusPath
    · subst hconsensus
      refine iff_of_true ?_ (Or.inr (Or.inr ⟨trivial, rfl⟩))
      unfold Present
      rw [hwith.consensus]
      exact nofun
    · rw [hwith.present_iff hpath hconsensus, h.present_iff path hpath]
      simp [Ready, hconsensus]

/-- A config with all that some migration needs. -/
structure Complete (c : Json) : Prop where
  root : c.kindAt [] = .nested
  groups : ∀ path ∈ groupPaths, c.kindAt path ≠ .plain
  present : ∀ path ∈ neededPaths, c.Present path

theorem Complete.same (h : Complete c) (hsame : Same c c') : Complete c' where
  root := hsame.root.trans h.root
  groups path hpath := by
    rw [hsame.kinds path (groupPaths_subset path hpath).1]
    exact h.groups path hpath
  present path hpath := (hsame.present_iff hpath).mpr (h.present path hpath)

theorem Complete.set (h : Complete c) (x : Json) {path : List String} (hne : path ≠ [])
    (hbeside : ∀ needed ∈ neededPaths, ¬path <+: needed) : Complete (lodashSet x path c) := by
  have hkind : ∀ needed ∈ neededPaths, (lodashSet x path c).kindAt needed = .nested ∨
      (lodashSet x path c).kindAt needed = c.kindAt needed := by
    intro needed hneeded
    rw [kindAt_lodashSet, if_neg (hbeside needed hneeded)]
    split
    · exact Or.inl rfl
    · exact Or.inr rfl
  refine ⟨?_, fun group hgroup => ?_, fun needed hneeded => ?_⟩
  · rw [kindAt_lodashSet, if_neg fun hprefix => hne (List.prefix_nil.mp hprefix), if_pos List.nil_prefix]
  · rcases hkind group (groupPaths_subset group hgroup).1 with heq | heq
    · rw [heq]
      exact nofun
    · rw [heq]
      exact h.groups group hgroup
  · unfold Present
    rcases hkind needed hneeded with heq | heq
    · rw [heq]
      exact nofun
    · rw [heq]
      exact h.present needed hneeded

open SystemConfigs in
theorem complete_baseConfig (home : String) : Complete (baseConfig home) := by
  refine ⟨rfl, ?_, ?_⟩
  · simp [groupPaths, kindAt, at?, baseConfig, tenderdash, options, get?, Record.get?_ofList, Record.get?_cons, kindOf]
  · simp [neededPaths, Present, kindAt, at?, baseConfig, core, dapi, abci, tenderdash, options, docker, dockerBuild, get?,
      Record.get?_ofList, Record.get?_cons, kindOf]

theorem Complete.merge (h : Complete c) {overrides : List (List String × Json)}
    (hoverrides : ∀ e ∈ overrides, e.1 ≠ [] ∧ ∀ needed ∈ neededPaths, ¬e.1 <+: needed) :
    Complete (SystemConfigs.merge c overrides) := by
  unfold SystemConfigs.merge
  induction overrides generalizing c with
  | nil => exact h
  | cons e overrides ih =>
    rw [List.forall_mem_cons] at hoverrides
    exact ih (h.set e.2 hoverrides.1.1 hoverrides.1.2) hoverrides.2

theorem complete_localConfig (home : String) : Complete (SystemConfigs.localConfig home) :=
  (complete_baseConfig home).merge (by simp [neededPaths])

theorem complete_testnetConfig (home : String) : Complete (SystemConfigs.testnetConfig home) :=
  (complete_baseConfig home).merge (by simp [neededPaths])

/-! ### Files -/

namespace ConfigFile
variable {f : Json → Option Json} {p p₀ : Json → Prop} {Q : Json → Json → Prop}

theorem gives_editConfigs (hf : ∀ name c, file.configs.get? name = some c → Gives (f c) (p c) (Q c)) :
    Gives (file.editConfigs f) (∀ name c, file.configs.get? name = some c → p c)
      fun file' => ∀ name, Option.Rel Q (file.configs.get? name) (file'.configs.get? name) := by
  refine Gives.map ⟨OrderedMap.isSome_traverse_iff.trans ?_, fun configs hconfigs => ?_⟩ fun configs h => h
  · exact forall_congr' fun name => forall₂_congr fun c hc => (hf name c hc).isSome_iff
  · intro name
    rw [OrderedMap.get?_of_traverse hconfigs]
    have hsome := OrderedMap.isSome_traverse_iff.mp (Option.isSome_of_eq_some hconfigs)
    cases hget : file.configs.get? name with
    | none => exact .none
    | some c =>
      obtain ⟨c', hc'⟩ := Option.isSome_iff_exists.mp (hsome name c hget)
      rw [Option.bind_some, hc']
      exact .some ((hf name c hget).spec c' hc')

theorem rel_same_refl (o : Option Json) : Option.Rel Same o o := by
  cases o with
  | none => exact .none
  | some c => exact .some (Same.refl c)

theorem gives_editConfig (name : String) (hf : ∀ c, file.configs.get? name = some c → Gives (f c) (p c) (Same c)) :
    Gives (file.editConfig name f) (∃ c, file.configs.get? name = some c ∧ p c)
      fun file' => ∀ name, Option.Rel Same (file.configs.get? name) (file'.configs.get? name) := by
  unfold editConfig
  cases hget : file.configs.get? name with
  | none => exact Gives.none fun ⟨c, hc, _⟩ => nomatch hc
  | some c =>
    rw [Option.bind_some]
    refine ((hf c hget).map fun c' hsame name' => ?_).congr ?_
    · show Option.Rel Same _ ((file.configs.insert name c').get? name')
      rw [OrderedMap.get?_insert]
      split
      · rename_i heq
        rw [heq, hget]
        exact .some hsame
      · exact rel_same_refl _
    · simp

/-- A condition on the configs but the local one, if that is replaced by a template. -/
def Each (file : ConfigFile) (d19 : Prop) (p : Json → Prop) : Prop :=
  ∀ name c, file.configs.get? name = some c → ¬(name = "local" ∧ d19) → p c

/-- A condition on a config that has to be there. -/
def Has (file : ConfigFile) (d19 : Prop) (name : String) (p : Json → Prop) : Prop :=
  (name = "local" ∧ d19) ∨ ∃ c, file.configs.get? name = some c ∧ p c

theorem each_iff (hconfigs : ∀ name, ¬(name = "local" ∧ d19) → Option.Rel Q (file₀.configs.get? name) (file.configs.get? name))
    (hp : ∀ c₀ c, Q c₀ c → (p c ↔ p₀ c₀)) (htemplate : d19 → ∀ c, file.configs.get? "local" = some c → p c) :
    (∀ name c, file.configs.get? name = some c → p c) ↔ file₀.Each d19 p₀ := by
  constructor
  · intro h name c₀ hget hname
    obtain ⟨c, hfile, hq⟩ := (hget ▸ hconfigs name hname).exists_right
    exact (hp c₀ c hq).mp (h name c hfile)
  · intro h name c hget
    by_cases hname : name = "local" ∧ d19
    · exact htemplate hname.2 c (hname.1 ▸ hget)
    · obtain ⟨c₀, hfile, hq⟩ := (hget ▸ hconfigs name hname).exists_left
      exact (hp c₀ c hq).mpr (h name c₀ hfile hname)

theorem has_iff (name : String)
    (hconfigs : ¬(name = "local" ∧ d19) → Option.Rel Q (file₀.configs.get? name) (file.configs.get? name))
    (hp : ∀ c₀ c, Q c₀ c → (p c ↔ p₀ c₀)) (htemplate : d19 → ∃ c, file.configs.get? "local" = some c ∧ p c) :
    (∃ c, file.configs.get? name = some c ∧ p c) ↔ file₀.Has d19 name p₀ := by
  unfold Has
  by_cases hname : name = "local" ∧ d19
  · exact iff_of_true (hname.1 ▸ htemplate hname.2) (Or.inl hname)
  · rw [or_iff_right hname]
    constructor
    · intro ⟨c, hget, hc⟩
      obtain ⟨c₀, hfile, hq⟩ := (hget ▸ hconfigs hname).exists_left
      exact ⟨c₀, hfile, (hp c₀ c hq).mp hc⟩
    · intro ⟨c₀, hfile, hc₀⟩
      obtain ⟨c, hget, hq⟩ := (hfile ▸ hconfigs hname).exists_right
      exact ⟨c, hget, (hp c₀ c hq).mpr hc₀⟩

end ConfigFile

/-- What is left of the configs of a file by the migrations. -/
structure Migrated (d18 d19 : Prop) (file₀ file : ConfigFile) : Prop where
  template : d19 → ∃ c, file.configs.get? "local" = some c ∧ Complete c
  configs : ∀ name, ¬(name = "local" ∧ d19) →
    Option.Rel (Follows d18 d19) (file₀.configs.get? name) (file.configs.get? name)

theorem Migrated.same (h : Migrated d18 d19 file₀ file)
    (hsame : ∀ name, Option.Rel Same (file.configs.get? name) (file'.configs.get? name)) : Migrated d18 d19 file₀ file' := by
  refine ⟨fun hd19 => ?_, fun name hname => ?_⟩
  · obtain ⟨c, hget, hcomplete⟩ := h.template hd19
    obtain ⟨c', hget', hc⟩ := (hget ▸ hsame "local").exists_right
    exact ⟨c', hget', hcomplete.same hc⟩
  · exact (h.configs name hname).comp (hsame name) fun _ _ _ hfollows hc => hfollows.same hc

theorem Migrated.grouped (h : Migrated d18 d19 file₀ file) {name : String} (hget : file.configs.get? name = some c) :
    Grouped c := by
  by_cases hname : name = "local" ∧ d19
  · obtain ⟨c', hget', hcomplete⟩ := h.template hname.2
    rw [← hname.1, hget] at hget'
    cases hget'
    exact ⟨hcomplete.root, hcomplete.groups⟩
  · obtain ⟨c₀, -, hfollows⟩ := (hget ▸ h.configs name hname).exists_left
    exact ⟨hfollows.root, hfollows.groups⟩

section
variable {f : Json → Option Json} {p p₀ : Json → Prop}

theorem Migrated.gives_editConfigs (h : Migrated d18 d19 file₀ file) (hf : ∀ c, Grouped c → Gives (f c) (p c) (Same c))
    (hp : ∀ c₀ c, Follows d18 d19 c₀ c → (p c ↔ p₀ c₀)) (hcomplete : ∀ c, Complete c → p c) :
    Gives (file.editConfigs f) (file₀.Each d19 p₀) (Migrated d18 d19 file₀) := by
  refine ((ConfigFile.gives_editConfigs fun name c hget => hf c (h.grouped hget)).congr ?_).imp fun _ => h.same
  refine ConfigFile.each_iff h.configs hp fun hd19 c hget => ?_
  obtain ⟨c', hget', hc'⟩ := h.template hd19
  rw [hget] at hget'
  cases hget'
  exact hcomplete c hc'

theorem Migrated.gives_editConfig (h : Migrated d18 d19 file₀ file) (name : String)
    (hf : ∀ c, Grouped c → Gives (f c) (p c) (Same c)) (hp : ∀ c₀ c, Follows d18 d19 c₀ c → (p c ↔ p₀ c₀))
    (hcomplete : ∀ c, Complete c → p c) :
    Gives (file.editConfig name f) (file₀.Has d19 name p₀) (Migrated d18 d19 file₀) := by
  refine ((ConfigFile.gives_editConfig name fun c hget => hf c (h.grouped hget)).congr ?_).imp fun _ => h.same
  refine ConfigFile.has_iff name (h.configs name) hp fun hd19 => ?_
  obtain ⟨c, hget, hc⟩ := h.template hd19
  exact ⟨c, hget, hcomplete c hc⟩

end

theorem Follows.forall_iff (h : Follows d18 d19 c₀ c) {paths : List (List String)} (hpaths : ∀ path ∈ paths, path ∈ neededPaths) :
    (∀ path ∈ paths, c.Present path) ↔ ∀ path ∈ paths, Ready d18 d19 c₀ path :=
  forall₂_congr fun path hpath => h.present_iff path (hpaths path hpath)

/-! ### What is needed -/

/-- The configs as they are before the migration to 0.19.0. -/
def Composed (d18 : Prop) (file₀ file : ConfigFile) : Prop :=
  ∀ name, Option.Rel (fun c₀ c => Follows d18 False c₀ c ∧ c.get? "compose" = c₀.get? "compose")
    (file₀.configs.get? name) (file.configs.get? name)

theorem Composed.migrated (h : Composed d18 file₀ file) : Migrated d18 False file₀ file := by
  refine ⟨fun hfalse => hfalse.elim, fun name _ => ?_⟩
  exact (h name).comp (ConfigFile.rel_same_refl _) fun _ _ _ hfollows hsame => hfollows.1.same hsame

theorem gives_setOnEntries (h : Composed False file₀ file) : Gives (setOnEntries file) True (Composed False file₀) := by
  have hf : ∀ name c, file.configs.get? name = some c → Gives (if c.isNull then none else some c) True (Eq c) := by
    intro name c hget
    have hnull : c.isNull = false := by
      have hroot := (h.migrated.grouped hget).1
      cases c with
      | null => cases hroot
      | _ => rfl
    rw [hnull, if_neg Bool.false_ne_true]
    exact Gives.some rfl
  refine ((ConfigFile.gives_editConfigs hf).congr (by simp)).imp fun file' heq name => ?_
  refine (h name).comp (heq name) fun _ _ _ hfollows heq => ?_
  rw [← heq]
  exact hfollows

theorem gives_migrate0180 (h : Composed False file₀ file) :
    Gives (migrate0180 (SystemConfigs.systemConfigs home) file) True (Composed True file₀) := by
  have hf : ∀ name c, file.configs.get? name = some c → Gives (some (setImages (SystemConfigs.baseConfig home) c)) True
      (fun c' => c' = setImages (SystemConfigs.baseConfig home) c) := fun _ _ _ => Gives.some rfl
  refine ((ConfigFile.gives_editConfigs hf).congr (by simp)).imp fun file' heq name => ?_
  refine (h name).comp (heq name) fun _ _ _ hfollows heq => ?_
  subst heq
  refine ⟨hfollows.1.setImages, hfollows.2.symm.trans ?_ |>.symm⟩
  unfold setImages
  simp [get?_lodashSet]

/-- The options that the seeds of the test network are set in. -/
def p2pPath : List String := ["platform", "drive", "tenderdash", "p2p"]

theorem gives_configs0190 (h : Composed d18 file₀ file) :
    Gives (file.editConfigs (editConfig0190 (SystemConfigs.baseConfig home)))
      (file₀.Each False fun c => KeepsPlatform c ∧ ∀ path ∈ dockerPaths, Ready d18 False c path)
      fun file' => ∀ name, Option.Rel (Follows d18 True) (file₀.configs.get? name) (file'.configs.get? name) := by
  have hconfigs := ConfigFile.gives_editConfigs fun name c hget =>
    gives_editConfig0190 home c (h.migrated.grouped hget).1 ((h.migrated.grouped hget).2 _ (by decide))
  refine (hconfigs.congr (ConfigFile.each_iff (fun name _ => h name) ?_ fun hfalse => hfalse.elim)).imp ?_
  · intro c₀ c hfollows
    exact and_congr (keepsPlatform_congr hfollows.2) (hfollows.1.forall_iff (by decide))
  · intro file' hwith name
    exact (h name).comp (hwith name) fun _ _ _ hfollows hc => hfollows.1.withConsensus hc

theorem gives_testnet0190
    (h : ∀ name, Option.Rel (Follows d18 True) (file₀.configs.get? name) (file.configs.get? name)) :
    Gives ((file.editConfig "testnet" (applyEdits (testnetEdits (SystemConfigs.testnetConfig home)))).map fun file =>
        { file with configs := file.configs.insert "local" (SystemConfigs.localConfig home) })
      (file₀.Has False "testnet" fun c => Ready d18 True c p2pPath) (Migrated d18 True file₀) := by
  have htestnet := @ConfigFile.gives_editConfig file _ _ "testnet" fun c _ =>
    gives_testnetEdits (SystemConfigs.testnetConfig home) c
  refine (htestnet.congr (ConfigFile.has_iff "testnet" (fun _ => h "testnet") (fun c₀ c hc => ?_)
    fun hfalse => hfalse.elim)).map fun file' hsame => ?_
  · exact hc.present_iff _ (by decide)
  · refine ⟨fun _ => ⟨_, OrderedMap.get?_insert_self, complete_localConfig home⟩, fun name hname => ?_⟩
    have hne : name ≠ "local" := fun heq => hname ⟨heq, trivial⟩
    show Option.Rel _ _ ((file'.configs.insert "local" _).get? name)
    rw [OrderedMap.get?_insert_of_ne hne]
    exact (h name).comp (hsame name) fun _ _ _ hc hsame => hc.same hsame

theorem gives_migrate0190 (h : Composed d18 file₀ file) :
    Gives (migrate0190 (SystemConfigs.systemConfigs home) file)
      ((file₀.Each False fun c => KeepsPlatform c ∧ ∀ path ∈ dockerPaths, Ready d18 False c path) ∧
        file₀.Has False "testnet" fun c => Ready d18 True c p2pPath) (Migrated d18 True file₀) := by
  have hnamed : Composed d18 file₀ { file with defaultGroupName := some (file.defaultGroupName.getD .null) } := h
  exact (gives_configs0190 hnamed).bind fun _ => gives_testnet0190

section
variable {paths : List (List String)} {edits : List Edit}

/-- Every config is edited, and needs the options of some paths. -/
theorem Migrated.gives_edits (h : Migrated d18 d19 file₀ file) (hpaths : ∀ path ∈ paths, path ∈ neededPaths)
    (hf : ∀ c, Gives (applyEdits edits c) (∀ path ∈ paths, c.Present path) (Same c)) :
    Gives (file.editConfigs (applyEdits edits)) (file₀.Each d19 fun c => ∀ path ∈ paths, Ready d18 d19 c path)
      (Migrated d18 d19 file₀) :=
  h.gives_editConfigs (fun c _ => hf c) (fun _ _ hfollows => hfollows.forall_iff hpaths)
    fun _ hcomplete path hpath => hcomplete.present path (hpaths path hpath)

end

/-- The options that the type of quorums is set in. -/
def validatorSetPath : List String := ["platform", "drive", "abci", "validatorSet"]

theorem Migrated.gives_named (h : Migrated d18 d19 file₀ file) (name : String) {path : List String} (hpath : path ∈ neededPaths)
    {edits : List Edit} (hf : ∀ c, Gives (applyEdits edits c) (c.Present path) (Same c)) :
    Gives (file.editConfig name (applyEdits edits)) (file₀.Has d19 name fun c => Ready d18 d19 c path)
      (Migrated d18 d19 file₀) :=
  h.gives_editConfig name (fun c _ => hf c) (fun _ _ hfollows => hfollows.present_iff path hpath)
    fun _ hcomplete => hcomplete.present path hpath

theorem gives_migrate0191 (h : Migrated d18 d19 file₀ file) : Gives (migrate0191 (SystemConfigs.systemConfigs home) file)
    (file₀.Each d19 fun c => ∀ path ∈ [["core", "docker"]], Ready d18 d19 c path) (Migrated d18 d19 file₀) :=
  h.gives_edits (by decide) fun c => (gives_applyEdits rfl rfl c).congr (by simp [coreImage, Edit.assign])

theorem gives_migrate0192 (h : Migrated d18 d19 file₀ file) : Gives (migrate0192 (SystemConfigs.systemConfigs home) file)
    (file₀.Each d19 fun c => ∀ path ∈ [["core", "docker"], ["core", "sentinel", "docker"]], Ready d18 d19 c path)
    (Migrated d18 d19 file₀) :=
  h.gives_edits (by decide) fun c => (gives_applyEdits rfl rfl c).congr (by simp [coreImage, sentinelImage, Edit.assign])

/-- What 0.20.0 needs of a file: of each config, of the system configs, and of the configs of the local group. -/
structure Needs0200 (d18 d19 : Prop) (file : ConfigFile) : Prop where
  configs : file.Each d19 fun c => Ready d18 d19 c ["core"] ∧
    (Ready d18 d19 c ["platform"] → ∀ path ∈ platformPaths0200, Ready d18 d19 c path)
  base : file.Has d19 "base" fun c => Ready d18 d19 c validatorSetPath
  template : file.Has d19 "local" fun c => Ready d18 d19 c validatorSetPath
  groups : file.Each d19 fun c => isInLocalGroup c = true → Ready d18 d19 c ["platform"] → Ready d18 d19 c validatorSetPath
  testnet : file.Has d19 "testnet" fun c => Ready d18 d19 c p2pPath

/-- The configs of the local group with a platform get the type of quorums of local networks. -/
theorem gives_groupLlmqType (config : Json) (hc : Grouped c) :
    Gives (applyEdits (if isInLocalGroup c && isTruthy (c.get? "platform") then [llmqType config] else []) c)
      (isInLocalGroup c = true → c.Present ["platform"] → c.Present validatorSetPath) (Same c) := by
  have htruthy := @isTruthy_iff c "platform" (hc.2 _ (by decide))
  split
  · rename_i h
    obtain ⟨hgroup, hplatform⟩ := Bool.and_eq_true_iff.mp h
    exact (gives_llmqType config c).congr ⟨fun hp _ _ => hp, fun hp => hp hgroup (htruthy.mp hplatform)⟩
  · rename_i h
    refine (Gives.some (Same.refl c)).congr (iff_of_true trivial fun hgroup hplatform => absurd ?_ h)
    exact Bool.and_eq_true_iff.mpr ⟨hgroup, htruthy.mpr hplatform⟩

theorem gives_migrate0200 (h : Migrated d18 d19 file₀ file) :
    Gives (migrate0200 (SystemConfigs.systemConfigs home) file) (Needs0200 d18 d19 file₀) (Migrated d18 d19 file₀) := by
  have hconfigs : Gives (file.editConfigs (editConfig0200 (SystemConfigs.baseConfig home))) (file₀.Each d19 fun c =>
      Ready d18 d19 c ["core"] ∧ (Ready d18 d19 c ["platform"] → ∀ path ∈ platformPaths0200, Ready d18 d19 c path))
      (Migrated d18 d19 file₀) := by
    refine h.gives_editConfigs (fun c hc => gives_editConfig0200 _ c (hc.2 _ (by decide))) (fun c₀ c hfollows => ?_)
      fun c hcomplete => ⟨hcomplete.present _ (by decide), fun _ path hpath => hcomplete.present path ?_⟩
    · rw [hfollows.present_iff _ (by decide), hfollows.present_iff _ (by decide), hfollows.forall_iff (by decide)]
    · revert path
      decide
  have hgroups : ∀ file : ConfigFile, Migrated d18 d19 file₀ file →
      Gives (file.editConfigs fun config => applyEdits
          (if isInLocalGroup config && isTruthy (config.get? "platform") then [llmqType (SystemConfigs.localConfig home)] else [])
          config)
        (file₀.Each d19 fun c => isInLocalGroup c = true → Ready d18 d19 c ["platform"] → Ready d18 d19 c validatorSetPath)
        (Migrated d18 d19 file₀) := by
    refine fun file h => h.gives_editConfigs (fun c hc => gives_groupLlmqType _ hc) (fun c₀ c hfollows => ?_)
      fun c hcomplete _ _ => hcomplete.present _ (by decide)
    rw [hfollows.present_iff _ (by decide), hfollows.present_iff _ (by decide), hfollows.group]
  refine Gives.congr (hconfigs.bind fun file₁ h₁ => (h₁.gives_named "base" (by decide) (gives_llmqType _)).bind
    fun file₂ h₂ => (h₂.gives_named "local" (by decide) (gives_llmqType _)).bind
      fun file₃ h₃ => (hgroups file₃ h₃).bind fun file₄ h₄ => h₄.gives_named "testnet" (by decide) (gives_testnetEdits _)) ?_
  constructor
  · intro ⟨hconfigs, hbase, hlocal, hgroups, htestnet⟩
    exact ⟨hconfigs, hbase, hlocal, hgroups, htestnet⟩
  · intro hneeds
    exact ⟨hneeds.configs, hneeds.base, hneeds.template, hneeds.groups, hneeds.testnet⟩

theorem gives_migrate0202 (h : Migrated d18 d19 file₀ file) : Gives (migrate0202 (SystemConfigs.systemConfigs home) file)
    (file₀.Has d19 "testnet" fun c => Ready d18 d19 c ["platform", "drive", "tenderdash"]) (Migrated d18 d19 file₀) :=
  h.gives_named "testnet" (by decide) (gives_testnetEdits_tail _)

theorem gives_migrate0210 (h : Migrated d18 d19 file₀ file) : Gives (migrate0210 (SystemConfigs.systemConfigs home) file)
    (file₀.Each d19 fun c => ∀ path ∈ [["core", "miner"]], Ready d18 d19 c path) (Migrated d18 d19 file₀) :=
  h.gives_edits (by decide) fun c => (gives_applyEdits rfl rfl c).congr (by simp [Edit.assign])

/-! ### Runs of migrations -/

variable {u v w : Version}

theorem release_lt_iff {a b c a' b' c' : ℕ} :
    release a b c < release a' b' c' ↔ a < a' ∨ a = a' ∧ (b < b' ∨ b = b' ∧ c < c') := by
  simp [release, Prod.Lex.toLex_lt_toLex]

theorem pairwise_migrations : migrations.Pairwise fun m m' => m.version < m'.version := by
  simp [migrations, release_lt_iff]

/-- The migration of a version is made. -/
def Applied (v w version : Version) : Prop := v < version ∧ version ≤ w

instance (v w version : Version) : Decidable (Applied v w version) := inferInstanceAs (Decidable (_ ∧ _))

theorem migrationsBetween_eq (v w : Version) :
    migrationsBetween v w = migrations.filter fun m => decide (Applied v w m.version) := by
  have hfilter : (migrations.filter fun m => decide (v < m.version) && decide (m.version ≤ w)) =
      migrations.filter fun m => decide (Applied v w m.version) := List.filter_congr fun m _ => Bool.eq_iff_iff.mpr <| by
      rw [Bool.and_eq_true, decide_eq_true_eq, decide_eq_true_eq, decide_eq_true_eq, Applied]
  unfold migrationsBetween
  rw [hfilter]
  refine List.mergeSort_of_pairwise ?_
  exact (pairwise_migrations.filter _).imp fun hlt => by simpa using hlt.le

theorem filter_applied_append {l : List Migration} (hl : l.Pairwise fun m m' => m.version < m'.version) (hu : v ≤ u) (hw : u ≤ w) :
    l.filter (fun m => decide (Applied v w m.version)) =
      l.filter (fun m => decide (Applied v u m.version)) ++ l.filter fun m => decide (Applied u w m.version) := by
  induction l with
  | nil => rfl
  | cons m l ih =>
    obtain ⟨hhead, htail⟩ := List.pairwise_cons.mp hl
    have hrest := ih htail
    by_cases hm : m.version ≤ u
    · have hnot : ¬Applied u w m.version := fun h => absurd h.1 (not_lt.mpr hm)
      have hiff : Applied v w m.version ↔ Applied v u m.version :=
        and_congr_right fun _ => iff_of_true (hm.trans hw) hm
      rw [List.filter_cons, List.filter_cons, List.filter_cons, hrest]
      simp only [hiff, hnot, decide_false, Bool.false_eq_true, if_false]
      split <;> rfl
    · -- from here on every version is after u
      have hempty : (m :: l).filter (fun m => decide (Applied v u m.version)) = [] := by
        refine List.filter_eq_nil_iff.mpr fun m' hm' happlied => hm ?_
        have hle : m'.version ≤ u := (of_decide_eq_true happlied).2
        rcases List.mem_cons.mp hm' with rfl | hm'
        · exact hle
        · exact (hhead m' hm').le.trans hle
      rw [hempty, List.nil_append]
      refine List.filter_congr fun m' hm' => ?_
      have hlt : u < m'.version := by
        rcases List.mem_cons.mp hm' with rfl | hm'
        · exact not_le.mp hm
        · exact (not_le.mp hm).trans (hhead m' hm')
      simp only [Applied, hlt, hu.trans_lt hlt, true_and]

theorem migrationsBetween_append (hu : v ≤ u) (hw : u ≤ w) :
    migrationsBetween v w = migrationsBetween v u ++ migrationsBetween u w := by
  rw [migrationsBetween_eq, migrationsBetween_eq, migrationsBetween_eq]
  exact filter_applied_append pairwise_migrations hu hw

/-- The migrations between two versions, one after the other. -/
def run (v w : Version) (st : SystemConfigs × ConfigFile) : Option (SystemConfigs × ConfigFile) :=
  (migrationsBetween v w).foldlM (fun st m => m.migrate st.1 st.2) st

theorem run_append (hu : v ≤ u) (hw : u ≤ w) (st : SystemConfigs × ConfigFile) : run v w st = (run v u st).bind (run u w) := by
  unfold run
  rw [migrationsBetween_append hu hw, List.foldlM_append]
  rfl

/-- All migrations but that of 0.17.4 return the file. -/
theorem migrateConfigFile_eq_run (h : ¬Applied v w (release 0 17 4)) (system : SystemConfigs) (file : ConfigFile) :
    migrateConfigFile system (some file) v w = (run v w (system, file)).map fun st => (st.1, some st.2) := by
  unfold migrateConfigFile run
  cases hlast : (migrationsBetween v w).getLast? with
  | none =>
    rw [List.getLast?_eq_none_iff.mp hlast]
    rfl
  | some last =>
    have hmem := List.mem_of_getLast? hlast
    rw [migrationsBetween_eq, List.mem_filter, decide_eq_true_eq] at hmem
    have hreturns : last.returnsFile = true := by
      obtain ⟨hmem, happlied⟩ := hmem
      simp only [migrations, List.mem_cons, List.not_mem_nil, or_false] at hmem
      rcases hmem with rfl | rfl | rfl | rfl | rfl | rfl | rfl | rfl | rfl | rfl
      case inr.inr.inl => exact absurd happlied h
      all_goals rfl
    dsimp only
    rw [hreturns]
    rfl

theorem release_le_iff {a b c a' b' c' : ℕ} :
    release a b c ≤ release a' b' c' ↔ a < a' ∨ a = a' ∧ (b < b' ∨ b = b' ∧ c ≤ c') := by
  rw [← not_lt, release_lt_iff]
  omega

/-- The last migration up to 0.17.4 returns nothing. -/
theorem returnsFile_of_getLast? (h : v < release 0 17 4) {last : Migration}
    (hlast : (migrationsBetween v (release 0 17 4)).getLast? = some last) : last.returnsFile = false := by
  rw [migrationsBetween_eq] at hlast
  have hrest : (migrations.drop 3).filter (fun m => decide (Applied v (release 0 17 4) m.version)) = [] := by
    simp [migrations, Applied, release_le_iff]
  rw [← List.take_append_drop 3 migrations, List.filter_append, hrest, List.append_nil] at hlast
  simp [migrations, Applied, release_le_iff, List.filter_cons, h] at hlast
  split_ifs at hlast
  all_goals
    cases hlast
    rfl

/-- A migration of a run, which is passed over where it is not between the versions. -/
def stage (v w : Version) (st : SystemConfigs × ConfigFile) (m : Migration) : Option (SystemConfigs × ConfigFile) :=
  if Applied v w m.version then m.migrate st.1 st.2 else some st

theorem run_eq_foldlM (st : SystemConfigs × ConfigFile) : run v w st = migrations.foldlM (stage v w) st := by
  unfold run
  rw [migrationsBetween_eq, List.foldlM_filter]
  congr
  funext st m
  unfold stage
  by_cases h : Applied v w m.version <;> simp [h]

theorem gives_stage {P Q : ConfigFile → Prop} {p : Prop} {version : Version} {system : SystemConfigs}
    {migrate : SystemConfigs → ConfigFile → Option ConfigFile} {st : SystemConfigs × ConfigFile} (hst : st.1 = system ∧ P st.2)
    (h : Applied v w version → ∀ file, P file → Gives (migrate system file) p Q)
    (hnot : ¬Applied v w version → ∀ file, P file → Q file) :
    Gives (stage v w st ⟨version, fun system file => (migrate system file).map fun file => (system, file), true⟩)
      (Applied v w version → p) fun st => st.1 = system ∧ Q st.2 := by
  obtain ⟨rfl, hP⟩ := hst
  refine Gives.ite (fun happlied => ?_) fun happlied => ⟨rfl, hnot happlied _ hP⟩
  exact (h happlied _ hP).map fun file hQ => ⟨rfl, hQ⟩

/-- What the migrations that are made need of a file. -/
structure Migratable (file : ConfigFile) (applied : Version → Prop) : Prop where
  /-- The migration of 0.17.4 returns nothing. -/
  returns : ¬applied (release 0 17 4)
  /-- The images of the platform are set in configs without one, too. -/
  configs0190 : applied (release 0 19 0) → file.Each False fun c =>
    KeepsPlatform c ∧ ∀ path ∈ dockerPaths, Ready (applied (release 0 18 0)) False c path
  testnet0190 : applied (release 0 19 0) →
    file.Has False "testnet" fun c => Ready (applied (release 0 18 0)) True c p2pPath
  configs0191 : applied (release 0 19 1) → file.Each (applied (release 0 19 0)) fun c =>
    ∀ path ∈ [["core", "docker"]], Ready (applied (release 0 18 0)) (applied (release 0 19 0)) c path
  configs0192 : applied (release 0 19 2) → file.Each (applied (release 0 19 0)) fun c =>
    ∀ path ∈ [["core", "docker"], ["core", "sentinel", "docker"]],
      Ready (applied (release 0 18 0)) (applied (release 0 19 0)) c path
  needs0200 : applied (release 0 20 0) → Needs0200 (applied (release 0 18 0)) (applied (release 0 19 0)) file
  testnet0202 : applied (release 0 20 2) → file.Has (applied (release 0 19 0)) "testnet" fun c =>
    Ready (applied (release 0 18 0)) (applied (release 0 19 0)) c ["platform", "drive", "tenderdash"]
  configs0210 : applied (release 0 21 0) → file.Each (applied (release 0 19 0)) fun c =>
    ∀ path ∈ [["core", "miner"]], Ready (applied (release 0 18 0)) (applied (release 0 19 0)) c path

/-- The configs of a file are groups of options, in every format. -/
def WellGrouped (file : ConfigFile) : Prop := ∀ name c, file.configs.get? name = some c → Grouped c

theorem composed_refl (h : WellGrouped file) : Composed False file file := by
  intro name
  cases hget : file.configs.get? name with
  | none => exact .none
  | some c => exact .some ⟨Follows.refl (h name c hget), rfl⟩

theorem gives_stage0180 {st : SystemConfigs × ConfigFile} (hst : st.1 = SystemConfigs.systemConfigs home ∧ Composed False file st.2) :
    Gives (stage v w st ⟨release 0 18 0, fun system file => (migrate0180 system file).map fun file => (system, file), true⟩)
      (Applied v w (release 0 18 0) → True)
      fun st => st.1 = SystemConfigs.systemConfigs home ∧ Composed (Applied v w (release 0 18 0)) file st.2 := by
  refine gives_stage hst (fun happlied _ hfile => ?_) fun hnot _ hfile => ?_
  · rw [eq_true happlied]
    exact gives_migrate0180 hfile
  · rwa [eq_false hnot]

theorem gives_stage0190 {st : SystemConfigs × ConfigFile} (hst : st.1 = SystemConfigs.systemConfigs home ∧ Composed d18 file st.2) :
    Gives (stage v w st ⟨release 0 19 0, fun system file => (migrate0190 system file).map fun file => (system, file), true⟩)
      (Applied v w (release 0 19 0) →
        (file.Each False fun c => KeepsPlatform c ∧ ∀ path ∈ dockerPaths, Ready d18 False c path) ∧
          file.Has False "testnet" fun c => Ready d18 True c p2pPath)
      fun st => st.1 = SystemConfigs.systemConfigs home ∧ Migrated d18 (Applied v w (release 0 19 0)) file st.2 := by
  refine gives_stage hst (fun happlied _ hfile => ?_) fun hnot _ hfile => ?_
  · rw [eq_true happlied]
    exact gives_migrate0190 hfile
  · rw [eq_false hnot]
    exact hfile.migrated

/-- A migration after 0.19.0. -/
theorem gives_stage_migrated {p : Prop} {version : Version} {migrate : SystemConfigs → ConfigFile → Option ConfigFile}
    {st : SystemConfigs × ConfigFile} (hst : st.1 = SystemConfigs.systemConfigs home ∧ Migrated d18 d19 file st.2)
    (h : ∀ file', Migrated d18 d19 file file' →
      Gives (migrate (SystemConfigs.systemConfigs home) file') p (Migrated d18 d19 file)) :
    Gives (stage v w st ⟨version, fun system file => (migrate system file).map fun file => (system, file), true⟩)
      (Applied v w version → p) fun st => st.1 = SystemConfigs.systemConfigs home ∧ Migrated d18 d19 file st.2 :=
  gives_stage hst (fun _ => h) fun _ _ hfile => hfile

theorem isSome_run_iff (h : WellGrouped file) (hreturns : ¬Applied v w (release 0 17 4)) :
    (run v w (SystemConfigs.systemConfigs home, file)).isSome ↔ Migratable file (Applied v w) := by
  have hskipped : ∀ st : SystemConfigs × ConfigFile, stage v w st ⟨release 0 17 4, migrate0174, false⟩ = some st :=
    fun _ => if_neg hreturns
  rw [run_eq_foldlM]
  simp only [migrations, List.foldlM_cons, List.foldlM_nil, hskipped]
  refine (Gives.congr ((@gives_stage v w _ _ _ _ (SystemConfigs.systemConfigs home) _ _ ⟨rfl, composed_refl h⟩
    (fun _ _ => gives_setOnEntries) fun _ _ hfile => hfile).bind fun _ h0172 =>
      (gives_stage h0172 (fun _ _ => gives_setOnEntries) fun _ _ hfile => hfile).bind fun _ h0173 =>
        (gives_stage0180 h0173).bind fun _ h0180 => (gives_stage0190 h0180).bind fun _ h0190 =>
          (gives_stage_migrated h0190 fun _ => gives_migrate0191).bind fun _ h0191 =>
            (gives_stage_migrated h0191 fun _ => gives_migrate0192).bind fun _ h0192 =>
              (gives_stage_migrated h0192 fun _ => gives_migrate0200).bind fun _ h0200 =>
                (gives_stage_migrated h0200 fun _ => gives_migrate0202).bind fun _ h0202 =>
                  (gives_stage_migrated h0202 fun _ => gives_migrate0210).bind fun _ h0210 => Gives.some h0210)
                    ?_).isSome_iff
  constructor
  · intro ⟨_, _, _, h0190, h0191, h0192, h0200, h0202, h0210, _⟩
    exact ⟨hreturns, fun happlied => (h0190 happlied).1, fun happlied => (h0190 happlied).2, h0191, h0192, h0200, h0202, h0210⟩
  · intro hm
    exact ⟨fun _ => trivial, fun _ => trivial, fun _ => trivial,
      fun happlied => ⟨hm.configs0190 happlied, hm.testnet0190 happlied⟩, hm.configs0191, hm.configs0192, hm.needs0200,
      hm.testnet0202, hm.configs0210, trivial⟩

/-- A file is migrated to a version, and to the same file by way of any version between. -/
def Migrates (system : SystemConfigs) (file : ConfigFile) (v w : Version) : Prop :=
  ∃ system' migrated, migrateConfigFile system (some file) v w = some (system', some migrated) ∧
    ∀ u, v ≤ u → u ≤ w → ∃ system'', ((migrateConfigFile system (some file) v u).bind fun st =>
      migrateConfigFile st.1 st.2 u w) = some (system'', some migrated)

/-- After 0.17.4 there is no file any more. -/
theorem not_migrates_of_applied_0174 (system : SystemConfigs) (h : Applied v w (release 0 17 4)) : ¬Migrates system file v w := by
  intro ⟨_, migrated, _, hbetween⟩
  obtain ⟨system', hsteps⟩ := hbetween _ h.1.le h.2
  obtain ⟨st, hfirst, hsecond⟩ := Option.bind_eq_some_iff.mp hsteps
  have hnone : st.2 = none := by
    unfold migrateConfigFile at hfirst
    cases hlast : (migrationsBetween v (release 0 17 4)).getLast? with
    | none =>
      rw [migrationsBetween_eq, List.getLast?_eq_none_iff] at hlast
      have hmem : (⟨release 0 17 4, migrate0174, false⟩ : Migration) ∈
          migrations.filter fun m => decide (Applied v (release 0 17 4) m.version) :=
        List.mem_filter.mpr ⟨by simp [migrations], decide_eq_true ⟨h.1, le_rfl⟩⟩
      rw [hlast] at hmem
      cases hmem
    | some last =>
      rw [hlast] at hfirst
      dsimp only at hfirst
      rw [Option.bind_some, returnsFile_of_getLast? h.1 hlast] at hfirst
      obtain ⟨st', -, rfl⟩ := Option.map_eq_some_iff.mp hfirst
      rfl
  rw [hnone] at hsecond
  unfold migrateConfigFile at hsecond
  cases hlast : (migrationsBetween (release 0 17 4) w).getLast? with
  | none =>
    rw [hlast] at hsecond
    cases hsecond
  | some last =>
    rw [hlast] at hsecond
    cases hsecond

theorem migrates_iff_isSome_run (hreturns : ¬Applied v w (release 0 17 4)) (system : SystemConfigs) :
    Migrates system file v w ↔ (run v w (system, file)).isSome := by
  constructor
  · intro ⟨system', migrated, heq, _⟩
    rw [migrateConfigFile_eq_run hreturns] at heq
    obtain ⟨st, hst, -⟩ := Option.map_eq_some_iff.mp heq
    rw [hst]
    rfl
  · intro hsome
    obtain ⟨st, hst⟩ := Option.isSome_iff_exists.mp hsome
    refine ⟨st.1, st.2, by rw [migrateConfigFile_eq_run hreturns, hst]; rfl, fun u hu hw => ⟨st.1, ?_⟩⟩
    rw [run_append hu hw] at hst
    obtain ⟨st', hfirst, hsecond⟩ := Option.bind_eq_some_iff.mp hst
    rw [migrateConfigFile_eq_run fun happlied => hreturns ⟨happlied.1, happlied.2.trans hw⟩, hfirst]
    dsimp only [Option.map_some, Option.bind_some]
    rw [migrateConfigFile_eq_run fun happlied => hreturns ⟨hu.trans_lt happlied.1, happlied.2⟩, hsecond]
    rfl

/-- Which files are migrated. -/
theorem migrates_iff_migratable (home : String) (file : ConfigFile) (v w : Version) (hgrouped : WellGrouped file) :
    Migrates (SystemConfigs.systemConfigs home) file v w ↔ Migratable file (Applied v w) := by
  by_cases hreturns : Applied v w (release 0 17 4)
  · exact iff_of_false (not_migrates_of_applied_0174 _ hreturns) fun hm => hm.returns hreturns
  · exact (migrates_iff_isSome_run hreturns _).trans (isSome_run_iff hgrouped hreturns)

/-- 0.21.0-dev.7, the version of the package. -/
def currentVersion : Version :=
  let prerelease : List (ℕ ⊕ₗ String) := [toLex (.inr "dev"), toLex (.inl 7)]
  toLex (0, toLex (21, toLex (0, (prerelease : WithTop (List (ℕ ⊕ₗ String))))))

/-- The file of the configs that come with the program. -/
def systemFile (home : String) : ConfigFile where
  configFormatVersion := .text "0.19.2"
  defaultConfigName := .text "base"
  defaultGroupName := some .null
  configs := ((OrderedMap.empty.insert "base" (SystemConfigs.baseConfig home)).insert "local"
    (SystemConfigs.localConfig home)).insert "testnet" (SystemConfigs.testnetConfig home)

theorem complete_of_get?_systemFile {name : String} (h : (systemFile home).configs.get? name = some c) : Complete c := by
  unfold systemFile at h
  rw [OrderedMap.get?_insert, OrderedMap.get?_insert, OrderedMap.get?_insert, OrderedMap.get?_empty] at h
  split at h
  · cases h
    exact complete_testnetConfig home
  · split at h
    · cases h
      exact complete_localConfig home
    · split at h
      · cases h
        exact complete_baseConfig home
      · cases h

theorem migratable_systemFile (home : String) : Migratable (systemFile home) (Applied (release 0 19 2) currentVersion) := by
  have hpresent {name : String} {c : Json} (h : (systemFile home).configs.get? name = some c) {path : List String}
      (hpath : path ∈ neededPaths) : Ready (Applied (release 0 19 2) currentVersion (release 0 18 0))
        (Applied (release 0 19 2) currentVersion (release 0 19 0)) c path :=
    .inl ((complete_of_get?_systemFile h).present path hpath)
  have hbase : (systemFile home).configs.get? "base" = some (SystemConfigs.baseConfig home) := by
    simp [systemFile, OrderedMap.get?_insert]
  have hlocal : (systemFile home).configs.get? "local" = some (SystemConfigs.localConfig home) := by
    simp [systemFile, OrderedMap.get?_insert]
  have htestnet : (systemFile home).configs.get? "testnet" = some (SystemConfigs.testnetConfig home) := OrderedMap.get?_insert_self
  constructor
  case needs0200 =>
    refine fun _ => ⟨fun name c hget _ => ⟨hpresent hget (by decide), fun _ path hpath => hpresent hget ?_⟩,
      .inr ⟨_, hbase, hpresent hbase (by decide)⟩, .inr ⟨_, hlocal, hpresent hlocal (by decide)⟩,
      fun name c hget _ _ _ => hpresent hget (by decide), .inr ⟨_, htestnet, hpresent htestnet (by decide)⟩⟩
    revert path
    decide
  case testnet0202 => exact fun _ => .inr ⟨_, htestnet, hpresent htestnet (by decide)⟩
  case configs0210 =>
    intro _ name c hget _ path hpath
    rw [List.mem_singleton.mp hpath]
    exact hpresent hget (by decide)
  all_goals simp [Applied, release_lt_iff]

theorem wellGrouped_systemFile (home : String) : WellGrouped (systemFile home) := fun _ _ hget =>
  ⟨(complete_of_get?_systemFile hget).root, (complete_of_get?_systemFile hget).groups⟩

/-- It is migrated, and the same from every version between. -/
theorem migrates_systemFile : Migrates (SystemConfigs.systemConfigs "/home/node") (systemFile "/home/node") (release 0 19 2)
    currentVersion :=
  (migrates_iff_migratable _ _ _ _ (wellGrouped_systemFile "/home/node")).mpr (migratable_systemFile "/home/node")

/-- A config of a node without a platform. -/
def nodeConfig : Json := SystemConfigs.options
  [("compose", SystemConfigs.options [("file", .text "docker-compose.yml")]), ("core", SystemConfigs.core),
    ("network", .text "testnet")]

def nodeFile : ConfigFile := ⟨.text "0.18.0", .text "node", none, OrderedMap.empty.insert "node" nodeConfig⟩

theorem get?_nodeFile {name : String} (h : nodeFile.configs.get? name = some c) : c = nodeConfig := by
  unfold nodeFile at h
  rw [OrderedMap.get?_insert] at h
  split at h
  · exact (Option.some.inj h).symm
  · cases h

theorem wellGrouped_nodeFile : WellGrouped nodeFile := by
  intro name c hget
  rw [get?_nodeFile hget]
  exact ⟨rfl, by decide⟩

/-- It is lost where the images of the platform are set. -/
theorem not_migrates_nodeFile : WellGrouped nodeFile ∧ release 0 18 0 ≤ release 0 21 0 ∧
    ¬Migrates (SystemConfigs.systemConfigs "/home/node") nodeFile (release 0 18 0) (release 0 21 0) := by
  refine ⟨wellGrouped_nodeFile, release_le_iff.mpr (by decide), fun h => ?_⟩
  have hreturns : ¬Applied (release 0 18 0) (release 0 21 0) (release 0 17 4) := by simp [Applied, release_lt_iff]
  rw [migrates_iff_isSome_run hreturns, isSome_run_iff wellGrouped_nodeFile hreturns] at h
  have hkeeps := (h.configs0190 (by simp [Applied, release_lt_iff, release_le_iff]) "node" nodeConfig
    OrderedMap.get?_insert_self fun hfalse => hfalse.2).1
  change includesPlatform (some (.text "docker-compose.yml")) = some true at hkeeps
  revert hkeeps
  decide

end Dashmate
