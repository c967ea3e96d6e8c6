import DashPlatform.Dashmate.MigratedFiles

/-! # Images after migrations

What a file that is migrated to the current version should say: the images of its services, the options of the test
network, and the options that no migration names. The migration to 0.20.0 gives the API the image of Tenderdash, also in
the base config, which it needs a platform of. -/

namespace Dashmate
open Json Migrations

def dapiImagePath : List String := ["platform", "dapi", "api", "docker", "image"]

def tenderdashImagePath : List String := ["platform", "drive", "tenderdash", "docker", "image"]

/-- The images of Core, Sentinel, Drive, Tenderdash and DAPI. -/
def serviceImagePaths : List (List String) :=
  [["core", "docker", "image"], ["core", "sentinel", "docker", "image"], ["platform", "drive", "abci", "docker", "image"],
    tenderdashImagePath, dapiImagePath]

def isTestnet (config : Json) : Bool := isText "testnet" (config.get? "network")

def named (edits : List Edit) : List (List String) := edits.map fun e => e.path ++ [e.name]

/-- The options of a config that each migration names. -/
def namedOptions (name : String) (config : Json) : List (Version × List (List String)) :=
  let testnetOptions := if name = "testnet" then named (testnetEdits .null) else []
  [(release 0 17 2, if isTestnet config then
      [["platform", "drive", "tenderdash", "p2p", "seeds"], ["platform", "drive", "tenderdash", "p2p", "persistentPeers"]]
    else []),
    (release 0 17 3, if isTestnet config then [["platform", "dashpay"]] else []),
    (release 0 17 4, [["platform", "drive", "abci", "log"]]),
    (release 0 18 0, ["core", "sentinel"] :: serviceImagePaths),
    (release 0 19 0, [["group"], ["compose"]] ++
      (if includesPlatform ((config.get? "compose").bind fun compose => compose.get? "file") = some false then [["platform"]]
        else []) ++
      named (platformEdits .null) ++ named (imageEdits0190 .null) ++ testnetOptions ++ if name = "local" then [[]] else []),
    (release 0 19 1, named [coreImage .null]),
    (release 0 19 2, named [coreImage .null, sentinelImage .null]),
    (release 0 20 0, ["core", "debug"] :: named (platformEdits0200 .null) ++
      (if name = "base" ∨ name = "local" ∨ isInLocalGroup config then named [llmqType .null] else []) ++ testnetOptions),
    (release 0 20 2, testnetOptions.tail),
    (release 0 21 0, [["core", "miner", "mediantime"]])]

/-- What the file should be after the migrations that are made. -/
structure Updated (system : SystemConfigs) (applied : Version → Prop) (file migrated : ConfigFile) : Prop where
  images : ∀ name config, migrated.configs.get? name = some config → isTruthy (config.get? "platform") = true →
    ∀ path ∈ serviceImagePaths, config.at? path = system.base.at? path
  testnet : ∀ name config, migrated.configs.get? name = some config → isTestnet config = true →
    ∀ path ∈ [["platform", "drive", "tenderdash", "p2p", "seeds"], ["platform", "dashpay"]],
      config.at? path = system.testnet.at? path
  kept : ∀ name config config', file.configs.get? name = some config → migrated.configs.get? name = some config' →
    ∀ path, (∀ e ∈ namedOptions name config, applied e.1 → ∀ option ∈ e.2, Beside option path) →
      config'.at? path = config.at? path
  keptNames : migrated.configFormatVersion = file.configFormatVersion ∧ migrated.defaultConfigName = file.defaultConfigName ∧
    (¬applied (release 0 19 0) → migrated.defaultGroupName = file.defaultGroupName)

variable {home : String} {system : SystemConfigs} {c c' : Json} {file file' : ConfigFile} {edits : List Edit}

/-! ### Configs -/

theorem at?_applyEdits {path : List String} (h : applyEdits edits c = some c')
    (hbeside : ∀ e ∈ edits, Beside (e.path ++ [e.name]) path) : c'.at? path = c.at? path := by
  induction edits generalizing c with
  | nil =>
    cases h
    rfl
  | cons e edits ih =>
    obtain ⟨c₁, hfirst, hrest⟩ := Option.bind_eq_some_iff.mp h
    rw [List.forall_mem_cons] at hbeside
    rw [ih hrest hbeside.2, Edit.at?_apply hfirst hbeside.1]

/-- A platform without the image of DAPI. -/
structure WrongImage (home : String) (c : Json) : Prop where
  platform : c.kindAt ["platform"] = .nested
  image : c.at? dapiImagePath ≠ (SystemConfigs.baseConfig home).at? dapiImagePath

theorem WrongImage.applyEdits (h : WrongImage home c) (hc : applyEdits edits c = some c')
    (hbeside : ∀ e ∈ edits, Beside (e.path ++ [e.name]) dapiImagePath) : WrongImage home c' := by
  refine ⟨?_, by rw [at?_applyEdits hc hbeside]; exact h.image⟩
  have hkind := h.platform
  clear h
  induction edits generalizing c with
  | nil =>
    cases hc
    exact hkind
  | cons e edits ih =>
    obtain ⟨c₁, hfirst, hrest⟩ := Option.bind_eq_some_iff.mp hc
    rw [List.forall_mem_cons] at hbeside
    refine ih hrest hbeside.2 ?_
    rw [Edit.kindAt_apply hfirst fun hbegins => hbeside.1.1 (hbegins.trans ⟨_, rfl⟩), hkind]

section
open SystemConfigs

theorem at?_tenderdashImage (home : String) :
    (baseConfig home).at? tenderdashImagePath = some (.text "dashpay/tenderdash:0.6.0-dev.2") := by
  simp [tenderdashImagePath, at?, baseConfig, tenderdash, options, docker, get?, Record.get?_ofList, Record.get?_cons]

theorem at?_dapiImage (home : String) : (baseConfig home).at? dapiImagePath = some (.text "dashpay/dapi:0.21-dev") := by
  simp [dapiImagePath, at?, baseConfig, dapi, options, dockerBuild, get?, Record.get?_ofList, Record.get?_cons]

end

/-- The image of Tenderdash in the base config is that of the program. -/
def KeepsTenderdash (home : String) (system : SystemConfigs) : Prop :=
  system.base.at? tenderdashImagePath = (SystemConfigs.baseConfig home).at? tenderdashImagePath

theorem isTruthy_of_nested {name : String} (h : c.kindAt [name] = .nested) : isTruthy (c.get? name) = true := by
  rw [kindAt, at?] at h
  cases hget : c.get? name with
  | none =>
    rw [hget] at h
    cases h
  | some v =>
    rw [hget] at h
    cases v with
    | object _ => rfl
    | _ => cases h

/-- Where an option of a platform is there, the platform is a group of options. -/
theorem nested_of_present {name name' : String} {path : List String} (h : c.Present (name :: name' :: path)) :
    c.kindAt [name] = .nested := by
  unfold Present kindAt at h
  rw [at?] at h
  rw [kindAt, at?]
  cases hget : c.get? name with
  | none =>
    rw [hget] at h
    exact absurd rfl h
  | some v =>
    rw [hget] at h
    cases v with
    | object _ => rfl
    | _ => exact absurd rfl h

theorem wrongImage_editConfig0200 (hsystem : KeepsTenderdash home system) (h : editConfig0200 system.base c = some c')
    (hplatform : c'.kindAt ["platform"] = .nested) : WrongImage home c' := by
  obtain ⟨c₁, -, h₂⟩ := Option.bind_eq_some_iff.mp h
  split at h₂
  · have hedits : platformEdits0200 system.base = (platformEdits0200 system.base).take 5 ++
        ([.assign ["platform", "dapi", "api", "docker"] "image" (read system.base tenderdashImagePath)] ++
          [coreImage system.base, sentinelImage system.base]) := rfl
    rw [hedits, applyEdits_append] at h₂
    obtain ⟨c₂, -, h₂⟩ := Option.bind_eq_some_iff.mp h₂
    rw [applyEdits_append] at h₂
    obtain ⟨c₃, h₃, h₄⟩ := Option.bind_eq_some_iff.mp h₂
    obtain ⟨c₃', hassign, heq⟩ := Option.bind_eq_some_iff.mp h₃
    cases heq
    have hread : read system.base tenderdashImagePath = .text "dashpay/tenderdash:0.6.0-dev.2" := by
      unfold Migrations.read
      rw [hsystem, at?_tenderdashImage]
      rfl
    refine ⟨hplatform, ?_⟩
    rw [at?_applyEdits h₄ (by simp [coreImage, sentinelImage, Edit.assign, dapiImagePath, Beside]), at?_dapiImage]
    rcases Edit.at?_apply_assign hassign with himage | himage
    · rw [hread] at himage
      show c₃.at? (["platform", "dapi", "api", "docker"] ++ ["image"]) ≠ _
      rw [himage]
      simp
    · show c₃.at? (["platform", "dapi", "api", "docker"] ++ ["image"]) ≠ _
      rw [himage]
      simp
  · rename_i hfalsy
    cases h₂
    exact absurd (isTruthy_of_nested hplatform) hfalsy

/-! ### Files -/

/-- The base config is there, and has a platform without the image of DAPI. -/
def WrongBase (home : String) (file : ConfigFile) : Prop :=
  ∃ c, file.configs.get? "base" = some c ∧ WrongImage home c

theorem get?_editConfigs {f : Json → Option Json} (h : file.editConfigs f = some file') (name : String) :
    file'.configs.get? name = (file.configs.get? name).bind f ∧
      ((file.configs.get? name).isSome → ((file.configs.get? name).bind f).isSome) := by
  obtain ⟨configs, hconfigs, rfl⟩ := Option.map_eq_some_iff.mp h
  refine ⟨OrderedMap.get?_of_traverse hconfigs name, fun hsome => ?_⟩
  obtain ⟨c, hget⟩ := Option.isSome_iff_exists.mp hsome
  rw [hget, Option.bind_some]
  exact OrderedMap.isSome_traverse_iff.mp (Option.isSome_of_eq_some hconfigs) name c hget

theorem WrongBase.editConfigs {f : Json → Option Json} (h : WrongBase home file) (hfile : file.editConfigs f = some file')
    (hf : ∀ c c', WrongImage home c → f c = some c' → WrongImage home c') : WrongBase home file' := by
  obtain ⟨c, hget, hwrong⟩ := h
  obtain ⟨hbind, hsome⟩ := get?_editConfigs hfile "base"
  rw [hget, Option.bind_some] at hbind hsome
  obtain ⟨c', hc'⟩ := Option.isSome_iff_exists.mp (hsome rfl)
  exact ⟨c', by rw [hbind, hc'], hf c c' hwrong hc'⟩

theorem WrongBase.editConfig {f : Json → Option Json} {name : String} (h : WrongBase home file)
    (hfile : file.editConfig name f = some file') (hf : ∀ c c', WrongImage home c → f c = some c' → WrongImage home c') :
    WrongBase home file' := by
  obtain ⟨c, hget, hwrong⟩ := h
  obtain ⟨c₁, hget₁, hfile⟩ := Option.bind_eq_some_iff.mp hfile
  obtain ⟨c₂, hc₂, rfl⟩ := Option.map_eq_some_iff.mp hfile
  by_cases hname : "base" = name
  · subst hname
    rw [hget] at hget₁
    cases hget₁
    exact ⟨c₂, OrderedMap.get?_insert_self, hf c c₂ hwrong hc₂⟩
  · exact ⟨c, by rw [OrderedMap.get?_insert_of_ne hname, hget], hwrong⟩

theorem wrongImage_llmqType (config : Json) (h : WrongImage home c) (hc : applyEdits [llmqType config] c = some c') :
    WrongImage home c' :=
  h.applyEdits hc (by simp [llmqType, Edit.assign, dapiImagePath, Beside])

theorem beside_testnetEdits (testnet : Json) : ∀ e ∈ testnetEdits testnet, Beside (e.path ++ [e.name]) dapiImagePath := by
  simp [testnetEdits, Edit.assign, dapiImagePath, Beside]

theorem wrongBase_migrate0200 (hsystem : KeepsTenderdash home system) (h : migrate0200 system file = some file') :
    WrongBase home file' := by
  obtain ⟨file₁, h₁, h⟩ := Option.bind_eq_some_iff.mp h
  obtain ⟨file₂, h₂, h⟩ := Option.bind_eq_some_iff.mp h
  obtain ⟨file₃, h₃, h⟩ := Option.bind_eq_some_iff.mp h
  obtain ⟨file₄, h₄, h₅⟩ := Option.bind_eq_some_iff.mp h
  have hbase : WrongBase home file₁ := by
    -- the type of quorums is set in the base config
    obtain ⟨c₁, hget, hfile⟩ := Option.bind_eq_some_iff.mp h₂
    obtain ⟨c₂, hc₂, -⟩ := Option.map_eq_some_iff.mp hfile
    have hget₁ := (get?_editConfigs h₁ "base").1
    rw [hget] at hget₁
    obtain ⟨c, -, hc⟩ := Option.bind_eq_some_iff.mp hget₁.symm
    refine ⟨c₁, hget, wrongImage_editConfig0200 hsystem hc ?_⟩
    obtain ⟨c₂', happly, -⟩ := Option.bind_eq_some_iff.mp hc₂
    exact nested_of_present (Edit.isSome_apply_iff.mp (Option.isSome_of_eq_some happly))
  have h₂' := hbase.editConfig h₂ fun _ _ => wrongImage_llmqType _
  have h₃' := h₂'.editConfig h₃ fun _ _ => wrongImage_llmqType _
  refine (h₃'.editConfigs h₄ fun c c' hc hedits => ?_).editConfig h₅ fun _ _ hc hedits =>
    hc.applyEdits hedits (beside_testnetEdits _)
  split at hedits
  · exact wrongImage_llmqType _ hc hedits
  · exact hc.applyEdits hedits (by simp)

theorem WrongBase.migrate0202 (h : WrongBase home file) (hfile : migrate0202 system file = some file') : WrongBase home file' :=
  h.editConfig hfile fun _ _ hc hedits =>
    hc.applyEdits hedits fun e he => beside_testnetEdits _ e (List.mem_of_mem_tail he)

theorem WrongBase.migrate0210 (h : WrongBase home file) (hfile : migrate0210 system file = some file') : WrongBase home file' :=
  h.editConfigs hfile fun _ _ hc hedits => hc.applyEdits hedits (by simp [Edit.assign, dapiImagePath, Beside])

/-! ### Runs -/

variable {v w : Version} {st st' : SystemConfigs × ConfigFile}

theorem keepsTenderdash_modifyLogSource (h : KeepsTenderdash home system) (source : String) (level : Json) :
    KeepsTenderdash home
      (modifyLogSource system source (lodashSet level ["platform", "drive", "abci", "log", "stdout", "level"])) := by
  unfold modifyLogSource
  split
  · exact h
  · split
    · exact h
    · unfold KeepsTenderdash
      rw [at?_lodashSet_of_beside _ _ (by decide)]
      exact h

theorem keepsTenderdash_migrate0174 (h : KeepsTenderdash home st.1) (hst : migrate0174 st.1 st.2 = some st') :
    KeepsTenderdash home st'.1 := by
  unfold migrate0174 at hst
  split at hst
  · cases hst
  · obtain ⟨configs, -, rfl⟩ := Option.map_eq_some_iff.mp hst
    refine List.foldlRecOn st.2.configs.entries _ h fun system hsystem e _ => ?_
    split
    · split
      · exact keepsTenderdash_modifyLogSource hsystem _ _
      · exact hsystem
    · exact hsystem

theorem keepsTenderdash_stage {m : Migration} (hm : m ∈ migrations) (h : KeepsTenderdash home st.1)
    (hst : stage v w st m = some st') : KeepsTenderdash home st'.1 := by
  unfold stage at hst
  split at hst
  · simp only [migrations, List.mem_cons, List.not_mem_nil, or_false] at hm
    rcases hm with rfl | rfl | rfl | rfl | rfl | rfl | rfl | rfl | rfl | rfl
    case inr.inr.inl => exact keepsTenderdash_migrate0174 h hst
    all_goals
      obtain ⟨file, -, rfl⟩ := Option.map_eq_some_iff.mp hst
      exact h
  · cases hst
    exact h

theorem keepsTenderdash_foldlM {l : List Migration} (hl : ∀ m ∈ l, m ∈ migrations) (h : KeepsTenderdash home st.1)
    (hst : l.foldlM (stage v w) st = some st') : KeepsTenderdash home st'.1 := by
  induction l generalizing st with
  | nil =>
    cases hst
    exact h
  | cons m l ih =>
    rw [List.forall_mem_cons] at hl
    obtain ⟨st₁, hfirst, hrest⟩ := Option.bind_eq_some_iff.mp hst
    exact ih hl.2 (keepsTenderdash_stage hl.1 h hfirst) hrest

/-- A file that is returned is what the migrations have made of the file. -/
theorem run_of_migrateConfigFile {migrated : ConfigFile} {system' : SystemConfigs}
    (h : migrateConfigFile system (some file) v w = some (system', some migrated)) :
    run v w (system, file) = some (system', migrated) := by
  unfold migrateConfigFile at h
  unfold run
  cases hlast : (migrationsBetween v w).getLast? with
  | none =>
    rw [hlast] at h
    cases h
    rw [List.getLast?_eq_none_iff.mp hlast]
    rfl
  | some last =>
    rw [hlast] at h
    obtain ⟨st, hst, heq⟩ := Option.map_eq_some_iff.mp h
    rw [hst]
    obtain ⟨rfl, hfile⟩ := Prod.mk.inj heq
    split at hfile
    · cases hfile
      rfl
    · cases hfile

/-- Where the migration to 0.20.0 is made, the base config ends without the image of DAPI. -/
theorem wrongBase_of_run (happlied : Applied v w (release 0 20 0)) (hsystem : KeepsTenderdash home st.1)
    (h : run v w st = some st') : WrongBase home st'.2 := by
  rw [run_eq_foldlM, ← List.take_append_drop 7 migrations, List.foldlM_append] at h
  obtain ⟨st₁, hfirst, hrest⟩ := Option.bind_eq_some_iff.mp h
  have hkeeps := keepsTenderdash_foldlM (fun _ hm => List.mem_of_mem_take hm) hsystem hfirst
  obtain ⟨st₂, h0200, hrest⟩ := Option.bind_eq_some_iff.mp hrest
  obtain ⟨st₃, h0202, hrest⟩ := Option.bind_eq_some_iff.mp hrest
  obtain ⟨st₄, h0210, hrest⟩ := Option.bind_eq_some_iff.mp hrest
  cases hrest
  unfold stage at h0200 h0202 h0210
  rw [if_pos happlied] at h0200
  obtain ⟨file₂, hmigrate, rfl⟩ := Option.map_eq_some_iff.mp h0200
  have hwrong := wrongBase_migrate0200 hkeeps hmigrate
  have hwrong' : WrongBase home st₃.2 := by
    split at h0202
    · obtain ⟨file₃, hmigrate, rfl⟩ := Option.map_eq_some_iff.mp h0202
      exact hwrong.migrate0202 hmigrate
    · cases h0202
      exact hwrong
  split at h0210
  · obtain ⟨file₄, hmigrate, rfl⟩ := Option.map_eq_some_iff.mp h0210
    exact hwrong'.migrate0210 hmigrate
  · cases h0210
    exact hwrong'

theorem WrongBase.not_updated {applied : Version → Prop} {migrated : ConfigFile} (h : WrongBase home migrated) :
    ¬Updated (SystemConfigs.systemConfigs home) applied file migrated := by
  intro hupdated
  obtain ⟨c, hget, hwrong⟩ := h
  exact hwrong.image (hupdated.images "base" c hget (isTruthy_of_nested hwrong.platform) _ (by decide))

theorem release_le_currentVersion : release 0 20 0 ≤ currentVersion := by decide

/-- No file of a version before 0.20.0 that is migrated to the current version is what it should be. -/
theorem not_updated_of_migrateConfigFile (home : String) (file migrated : ConfigFile) (system : SystemConfigs) (v : Version)
    (hv : v < release 0 20 0)
    (h : migrateConfigFile (SystemConfigs.systemConfigs home) (some file) v currentVersion = some (system, some migrated)) :
    ¬Updated (SystemConfigs.systemConfigs home) (Applied v currentVersion) file migrated := by
  refine WrongBase.not_updated (wrongBase_of_run ⟨hv, release_le_currentVersion⟩ ?_ (run_of_migrateConfigFile h))
  exact rfl

/-- The migrations succeed. -/
theorem exists_migrated_systemFile (home : String) : ∃ system migrated,
    migrateConfigFile (SystemConfigs.systemConfigs home) (some (systemFile home)) (release 0 19 2) currentVersion =
      some (system, some migrated) := by
  have hreturns := (migratable_systemFile home).returns
  obtain ⟨st, hrun⟩ := Option.isSome_iff_exists.mp
    ((isSome_run_iff (wellGrouped_systemFile home) hreturns).mpr (migratable_systemFile home))
  exact ⟨st.1, st.2, by rw [migrateConfigFile_eq_run hreturns, hrun]; rfl⟩

theorem not_updated_systemFile : ∃ system migrated,
    migrateConfigFile (SystemConfigs.systemConfigs "/home/node") (some (systemFile "/home/node")) (release 0 19 2)
      currentVersion = some (system, some migrated) ∧
    ¬Updated (SystemConfigs.systemConfigs "/home/node") (Applied (release 0 19 2) currentVersion) (systemFile "/home/node")
      migrated := by
  obtain ⟨system, migrated, h⟩ := exists_migrated_systemFile "/home/node"
  exact ⟨system, migrated, h, not_updated_of_migrateConfigFile _ _ _ system _ (by decide) h⟩

/-- The base config of the program itself, migrated from 0.19.2, ends with the image of Tenderdash for DAPI. -/
theorem not_forall_updated : ¬∀ home file v, v < release 0 20 0 → ∀ system migrated,
    migrateConfigFile (SystemConfigs.systemConfigs home) (some file) v currentVersion = some (system, some migrated) →
      Updated (SystemConfigs.systemConfigs home) (Applied v currentVersion) file migrated := by
  intro hall
  obtain ⟨system, migrated, h⟩ := exists_migrated_systemFile "/home/node"
  refine (WrongBase.not_updated (wrongBase_of_run ⟨by decide, release_le_currentVersion⟩ ?_ (run_of_migrateConfigFile h)))
    (hall "/home/node" _ (release 0 19 2) (by decide) system migrated h)
  exact rfl

end Dashmate
