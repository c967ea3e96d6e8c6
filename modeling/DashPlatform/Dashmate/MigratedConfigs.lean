import DashPlatform.Dashmate.Migrations
import DashPlatform.Lib.Optional

/-! # Configs that are migrated

What a migration needs of a config, and what it keeps of it. Of a config it matters which groups of options are there. -/

namespace Dashmate
open Json Migrations

/-! ### Edits -/

/-- The paths of the options that some migration needs. -/
def neededPaths : List (List String) :=
  [["core"], ["core", "docker"], ["core", "sentinel", "docker"], ["core", "miner"], ["platform"],
    ["platform", "drive", "tenderdash"], ["platform", "drive", "tenderdash", "docker"],
    ["platform", "drive", "tenderdash", "p2p"], ["platform", "drive", "tenderdash", "consensus", "createEmptyBlocks"],
    ["platform", "drive", "abci", "docker"], ["platform", "drive", "abci", "validatorSet"],
    ["platform", "dapi", "api", "docker"]]

/-- The paths of groups of options that a config has in every format, if it has something there. -/
def groupPaths : List (List String) := [["platform"], ["platform", "drive", "tenderdash"]]

/-- An option beside those that are needed, in one of the groups `core` and `platform`. -/
def isBeside (path : List String) (name : String) : Bool :=
  (neededPaths.all fun needed => !(path ++ [name]).isPrefixOf needed) && (path.head? = some "core" || path.head? = some "platform")

/-- The same of a config is there, at the paths that are needed. -/
structure Same (c c' : Json) : Prop where
  root : c'.kindAt [] = c.kindAt []
  kinds : ∀ path ∈ neededPaths, c'.kindAt path = c.kindAt path
  group : isInLocalGroup c' = isInLocalGroup c

theorem Same.refl (c : Json) : Same c c := ⟨rfl, fun _ _ => rfl, rfl⟩

theorem Same.trans {c c' c'' : Json} (h : Same c c') (h' : Same c' c'') : Same c c'' :=
  ⟨h'.root.trans h.root, fun path hpath => (h'.kinds path hpath).trans (h.kinds path hpath), h'.group.trans h.group⟩

theorem Same.present_iff {c c' : Json} (h : Same c c') {path : List String} (hpath : path ∈ neededPaths) :
    c'.Present path ↔ c.Present path := by
  unfold Present
  rw [h.kinds path hpath]

theorem get?_apply {e : Edit} {c c' : Json} {name : String} (h : e.apply c = some c') (hpath : e.path ≠ [])
    (hname : e.path.head? ≠ some name) : c'.get? name = c.get? name := by
  obtain ⟨segment, path, hsegment⟩ := List.exists_cons_of_ne_nil hpath
  unfold Edit.apply at h
  rw [hsegment] at h hname
  cases c with
  | object properties =>
    unfold editAt at h
    obtain ⟨u, -, h⟩ := Option.bind_eq_some_iff.mp h
    obtain ⟨u', -, rfl⟩ := Option.map_eq_some_iff.mp h
    unfold get?
    dsimp only
    rw [Record.get?_insert, if_neg fun heq => hname (congrArg some heq.symm)]
  | _ => cases h

theorem same_of_apply {e : Edit} {c c' : Json} (h : e.apply c = some c') (hbeside : isBeside e.path e.name = true) :
    Same c c' := by
  unfold isBeside at hbeside
  rw [Bool.and_eq_true, List.all_eq_true, Bool.or_eq_true, decide_eq_true_eq, decide_eq_true_eq] at hbeside
  obtain ⟨hneeded, hhead⟩ := hbeside
  have hnil : e.path ≠ [] := by
    intro hnil
    rw [hnil] at hhead
    rcases hhead with hhead | hhead <;> cases hhead
  have hne : e.path.head? ≠ some "group" := by
    intro heq
    rw [heq] at hhead
    revert hhead
    decide
  refine ⟨?_, fun path hpath => ?_, by rw [isInLocalGroup, get?_apply h hnil hne, isInLocalGroup]⟩
  · exact Edit.kindAt_apply h fun hprefix => by simpa using List.prefix_nil.mp hprefix
  · refine Edit.kindAt_apply h fun hprefix => ?_
    have hnot := hneeded path hpath
    rw [List.isPrefixOf_iff_prefix.mpr hprefix] at hnot
    cases hnot

theorem same_of_applyEdits {edits : List Edit} {c c' : Json} (h : applyEdits edits c = some c')
    (hall : (edits.all fun e => isBeside e.path e.name) = true) : Same c c' := by
  have hbeside := List.all_eq_true.mp hall
  clear hall
  induction edits generalizing c with
  | nil =>
    cases h
    exact Same.refl _
  | cons e edits ih =>
    obtain ⟨c₁, hfirst, hrest⟩ := Option.bind_eq_some_iff.mp h
    exact (same_of_apply hfirst (hbeside e List.mem_cons_self)).trans
      (ih hrest fun e' he' => hbeside e' (List.mem_cons_of_mem _ he'))

/-- No edit is made in an option that another one makes. -/
def areApart (edits : List Edit) : Bool := edits.all fun e => edits.all fun e' => !(e.path ++ [e.name]).isPrefixOf e'.path

/-- Edits that leave each other's options alone need all of these options. -/
theorem isSome_applyEdits_iff {edits : List Edit} {c : Json} (h : areApart edits = true) :
    (applyEdits edits c).isSome ↔ ∀ e ∈ edits, c.Present e.path := by
  have hapart : ∀ e ∈ edits, ∀ e' ∈ edits, (e.path ++ [e.name]).isPrefixOf e'.path = false := by
    simpa [areApart] using h
  clear h
  induction edits generalizing c with
  | nil => exact iff_of_true rfl nofun
  | cons e edits ih =>
    rw [List.forall_mem_cons, ← Edit.isSome_apply_iff]
    unfold applyEdits
    rw [List.foldlM_cons]
    cases happly : e.apply c with
    | none => simp
    | some c' =>
      rw [Option.isSome_some, eq_self_iff_true, true_and]
      have hrest := @ih c' fun e₁ he₁ e₂ he₂ => hapart e₁ (List.mem_cons_of_mem _ he₁) e₂ (List.mem_cons_of_mem _ he₂)
      refine hrest.trans (forall₂_congr fun e' he' => ?_)
      unfold Present
      rw [Edit.kindAt_apply happly fun hprefix => ?_]
      have hnot := hapart e List.mem_cons_self e' (List.mem_cons_of_mem _ he')
      rw [List.isPrefixOf_iff_prefix.mpr hprefix] at hnot
      cases hnot

/-- What a path goes through is there. -/
theorem Present.of_append {c : Json} {path rest : List String} (h : c.Present (path ++ rest)) : c.Present path := by
  induction path generalizing c with
  | nil =>
    cases c with
    | null =>
      cases rest with
      | nil => exact h
      | cons name rest => exact absurd (kindAt_cons_of_not_object rfl name rest) h
    | _ => exact nofun
  | cons name path ih =>
    cases c with
    | object properties =>
      unfold Present at h ⊢
      rw [List.cons_append, kindAt_object] at h
      rw [kindAt_object]
      cases hget : Record.get? properties name with
      | none =>
        rw [hget] at h
        exact absurd rfl h
      | some v =>
        rw [hget] at h
        exact ih h
    | _ => exact absurd (kindAt_cons_of_not_object rfl name (path ++ rest)) h

theorem isTruthy_iff {c : Json} {name : String} (h : c.kindAt [name] ≠ .plain) :
    isTruthy (c.get? name) = true ↔ c.Present [name] := by
  have hkind : c.kindAt [name] = kindOf (c.get? name) := by
    unfold kindAt
    rw [at?]
    cases c.get? name <;> rfl
  unfold Present
  rw [hkind] at h ⊢
  cases hget : c.get? name with
  | none => simp [isTruthy, kindOf]
  | some v => cases v <;> simp_all [isTruthy, kindOf]

/-! ### The migration to 0.18.0 -/

/-- The options that are made where they are not there. -/
def imagePaths : List (List String) :=
  [["core"], ["core", "docker"], ["core", "sentinel", "docker"], ["platform"], ["platform", "drive", "tenderdash"],
    ["platform", "drive", "tenderdash", "docker"], ["platform", "drive", "abci", "docker"],
    ["platform", "dapi", "api", "docker"]]

variable {home : String} {c c' : Json}

open SystemConfigs in
theorem kindAt_sentinel (home : String) : (read (baseConfig home) ["core", "sentinel"]).kindAt ["docker"] = .nested := by
  simp [Migrations.read, at?, baseConfig, core, options, docker, get?, Record.get?_ofList, Record.get?_cons, kindAt, kindOf]

theorem kindAt_setImages (home : String) (c : Json) {path : List String} (hpath : path ∈ neededPaths) :
    (setImages (SystemConfigs.baseConfig home) c).kindAt path =
      if path ∈ imagePaths then .nested else c.kindAt path := by
  unfold setImages
  rw [kindAt_lodashSet, kindAt_lodashSet, kindAt_lodashSet, kindAt_lodashSet, kindAt_lodashSet]
  simp only [neededPaths, List.mem_cons, List.not_mem_nil, or_false] at hpath
  rcases hpath with rfl | rfl | rfl | rfl | rfl | rfl | rfl | rfl | rfl | rfl | rfl | rfl
  case inr.inr.inl => exact kindAt_sentinel home
  all_goals rfl

/-! ### The migration to 0.19.0 -/

/-- A config whose compose file has the platform, or that has no compose file any more, keeps its platform. -/
def KeepsPlatform (c : Json) : Prop :=
  match c.get? "compose" with
  | some compose => includesPlatform (compose.get? "file") = some true
  | none => True

/-- The option that the consensus options of the base config have. -/
def consensusPath : List String := ["platform", "drive", "tenderdash", "consensus", "createEmptyBlocks"]

/-- The options that have images and builds. -/
def dockerPaths : List (List String) :=
  [["core", "docker"], ["platform", "drive", "tenderdash"], ["platform", "drive", "abci", "docker"],
    ["platform", "dapi", "api", "docker"]]

theorem applyEdits_append (edits edits' : List Edit) (c : Json) :
    applyEdits (edits ++ edits') c = (applyEdits edits c).bind (applyEdits edits') :=
  List.foldlM_append

theorem get?_change_of_ne {name name' : String} (f : Option Json → Option Json) (hne : name' ≠ name) :
    (c.change name f).get? name' = c.get? name' := by
  cases c with
  | object properties =>
    unfold change
    dsimp only
    cases f (Record.get? properties name) with
    | some v =>
      dsimp only [get?]
      rw [Record.get?_insert, if_neg hne]
    | none =>
      dsimp only [get?]
      rw [Record.get?_erase, if_neg hne]
  | _ => rfl

theorem get?_change_self {name : String} (f : Option Json → Option Json) (hroot : c.kindAt [] = .nested) :
    (c.change name f).get? name = f (c.get? name) := by
  cases c with
  | object properties =>
    unfold change
    dsimp only [get?]
    cases hf : f (Record.get? properties name) with
    | some v =>
      dsimp only [get?]
      rw [Record.get?_insert, if_pos rfl]
    | none =>
      dsimp only [get?]
      rw [Record.get?_erase, if_pos rfl]
  | _ => cases hroot

/-- An own option of the config is edited. -/
theorem eq_change_of_apply {name : String} {f : Option Json → Option Json} (h : (Edit.mk [] name f).apply c = some c') :
    c' = c.change name f := by
  unfold Edit.apply editAt at h
  split at h
  · cases h
  · exact (Option.some.inj h).symm

theorem get?_apply_root {name name' : String} {f : Option Json → Option Json} (h : (Edit.mk [] name f).apply c = some c')
    (hne : name' ≠ name) : c'.get? name' = c.get? name' := by
  rw [eq_change_of_apply h, get?_change_of_ne f hne]

theorem get?_apply_self {name : String} {f : Option Json → Option Json} (h : (Edit.mk [] name f).apply c = some c')
    (hroot : c.kindAt [] = .nested) : c'.get? name = f (c.get? name) := by
  rw [eq_change_of_apply h, get?_change_self f hroot]

/-- An own option beside those that are needed is edited, the group to no other group. -/
theorem same_of_apply_root {name : String} {f : Option Json → Option Json} (h : (Edit.mk [] name f).apply c = some c')
    (hroot : c.kindAt [] = .nested) (hneeded : ∀ path ∈ neededPaths, path.head? ≠ some name)
    (hgroup : name = "group" → ∀ old, isText "local" (f old) = isText "local" old) : Same c c' := by
  refine ⟨?_, fun path hpath => ?_, ?_⟩
  · exact Edit.kindAt_apply h fun hprefix => by simpa using List.prefix_nil.mp hprefix
  · refine Edit.kindAt_apply h fun hprefix => hneeded path hpath ?_
    obtain ⟨rest, rfl⟩ := hprefix
    rfl
  · unfold isInLocalGroup
    by_cases hname : name = "group"
    · subst hname
      rw [get?_apply_self h hroot, hgroup rfl]
    · rw [get?_apply_root h (Ne.symm hname)]

theorem exists_apply_root (name : String) (f : Option Json → Option Json) (hroot : c.kindAt [] = .nested) :
    ∃ c', (Edit.mk [] name f).apply c = some c' := by
  refine Option.isSome_iff_exists.mp (Edit.isSome_apply_iff.mpr ?_)
  unfold Present
  rw [hroot]
  exact nofun

theorem same_of_assignGroup (h : applyEdits [.assignUndefined [] "group" .null] c = some c') (hroot : c.kindAt [] = .nested) :
    Same c c' ∧ c'.get? "compose" = c.get? "compose" := by
  obtain ⟨c₁, happly, hnil⟩ := Option.bind_eq_some_iff.mp h
  cases hnil
  refine ⟨same_of_apply_root happly hroot (by decide) fun _ old => ?_, get?_apply_root happly (by decide)⟩
  cases old <;> rfl

/-- The compose option is removed, and with it a platform that it has not. -/
theorem removeCompose_of_keepsPlatform (hroot : c.kindAt [] = .nested) (hkeeps : KeepsPlatform c) :
    ∃ c', removeCompose c = some c' ∧ Same c c' := by
  unfold KeepsPlatform at hkeeps
  unfold removeCompose
  cases hcompose : c.get? "compose" with
  | none => exact ⟨c, rfl, Same.refl c⟩
  | some compose =>
    rw [hcompose] at hkeeps
    dsimp only at hkeeps ⊢
    have hnull : compose.isNull = false := by
      cases compose with
      | null => cases hkeeps
      | _ => rfl
    rw [hnull, if_neg Bool.false_ne_true, hkeeps, Option.bind_some, if_pos rfl]
    obtain ⟨c', hc'⟩ := exists_apply_root "compose" (fun _ => none) hroot
    refine ⟨c', ?_, same_of_apply_root hc' hroot (by decide) nofun⟩
    exact Option.bind_eq_some_iff.mpr ⟨c', hc', rfl⟩

theorem removeCompose_of_not_keepsPlatform (hroot : c.kindAt [] = .nested) (hkeeps : ¬KeepsPlatform c)
    (h : removeCompose c = some c') : c'.get? "platform" = none := by
  unfold KeepsPlatform at hkeeps
  unfold removeCompose at h
  cases hcompose : c.get? "compose" with
  | none =>
    rw [hcompose] at hkeeps
    exact absurd trivial hkeeps
  | some compose =>
    rw [hcompose] at h hkeeps
    dsimp only at h hkeeps
    split at h
    · cases h
    · obtain ⟨includes, hincludes, h⟩ := Option.bind_eq_some_iff.mp h
      cases includes with
      | true => exact absurd hincludes hkeeps
      | false =>
        rw [if_neg Bool.false_ne_true] at h
        obtain ⟨c₁, hplatform, h⟩ := Option.bind_eq_some_iff.mp h
        obtain ⟨c₂, hremove, hnil⟩ := Option.bind_eq_some_iff.mp h
        cases hnil
        have hnone : c₁.get? "platform" = none := get?_apply_self hplatform hroot
        rw [← hnone]
        exact get?_apply_root hremove (by decide)

theorem not_present_of_get?_none {name : String} {path : List String} (h : c.get? name = none) : ¬c.Present (name :: path) := by
  unfold Present kindAt
  rw [at?, h]
  exact fun hne => hne rfl

/-- Edits beside the needed options, each where the others leave its options alone. -/
theorem gives_applyEdits {edits : List Edit} (hapart : areApart edits = true)
    (hall : (edits.all fun e => isBeside e.path e.name) = true) (c : Json) :
    Gives (applyEdits edits c) (∀ e ∈ edits, c.Present e.path) (Same c) :=
  ⟨isSome_applyEdits_iff hapart, fun _ h => same_of_applyEdits h hall⟩

theorem consensus_baseConfig (home : String) : (read (SystemConfigs.baseConfig home)
    ["platform", "drive", "tenderdash", "consensus"]).kindAt ["createEmptyBlocks"] = .plain := by
  simp [Migrations.read, at?, SystemConfigs.baseConfig, SystemConfigs.tenderdash, SystemConfigs.options, get?, Record.get?_ofList,
    Record.get?_cons, kindAt, kindOf]

/-- The same of a config is there, but the consensus options are those of the base config. -/
structure WithConsensus (c c' : Json) : Prop where
  root : c'.kindAt [] = c.kindAt []
  kinds : ∀ path ∈ neededPaths, path ≠ consensusPath → c'.kindAt path = c.kindAt path
  consensus : c'.kindAt consensusPath = .plain
  group : isInLocalGroup c' = isInLocalGroup c

theorem Same.withConsensus {c'' : Json} (h : Same c c') (h' : WithConsensus c' c'') : WithConsensus c c'' :=
  ⟨h'.root.trans h.root, fun path hpath hne => (h'.kinds path hpath hne).trans (h.kinds path hpath), h'.consensus,
    h'.group.trans h.group⟩

theorem WithConsensus.same {c'' : Json} (h : WithConsensus c c') (h' : Same c' c'') : WithConsensus c c'' :=
  ⟨h'.root.trans h.root, fun path hpath hne => (h'.kinds path hpath).trans (h.kinds path hpath hne),
    (h'.kinds consensusPath (by decide)).trans h.consensus, h'.group.trans h.group⟩

theorem WithConsensus.present_iff (h : WithConsensus c c') {path : List String} (hpath : path ∈ neededPaths)
    (hne : path ≠ consensusPath) : c'.Present path ↔ c.Present path := by
  unfold Present
  rw [h.kinds path hpath hne]

theorem withConsensus_of_assign (hnested : c.kindAt ["platform", "drive", "tenderdash"] = .nested)
    (h : (Edit.assign ["platform", "drive", "tenderdash"] "consensus" (read (SystemConfigs.baseConfig home)
      ["platform", "drive", "tenderdash", "consensus"])).apply c = some c') : WithConsensus c c' := by
  refine ⟨?_, fun path hpath hne => ?_, ?_, ?_⟩
  · exact Edit.kindAt_apply h fun hprefix => by simpa using List.prefix_nil.mp hprefix
  · refine Edit.kindAt_apply h fun hprefix => hne ?_
    have hall : ∀ path ∈ neededPaths, (["platform", "drive", "tenderdash", "consensus"] : List String).isPrefixOf path = true →
        path = consensusPath := by decide
    exact hall path hpath (List.isPrefixOf_iff_prefix.mpr hprefix)
  · exact (Edit.kindAt_apply_assign h hnested ["createEmptyBlocks"]).trans (consensus_baseConfig home)
  · unfold isInLocalGroup
    rw [get?_apply h (List.cons_ne_nil _ _) fun heq => by simp [Edit.assign] at heq]

theorem kindAt_eq_nested {path : List String} (h : c.Present path) (hgroup : c.kindAt path ≠ .plain) : c.kindAt path = .nested := by
  unfold Present at h
  cases hkind : c.kindAt path with
  | nullish => exact absurd hkind h
  | plain => exact absurd hkind hgroup
  | nested => rfl

/-- The builds come before the consensus options of the base config, and other options after them. -/
theorem gives_platformEdits (home : String) (c : Json) (hgroup : c.kindAt ["platform", "drive", "tenderdash"] ≠ .plain) :
    Gives (applyEdits (platformEdits (SystemConfigs.baseConfig home)) c)
      (c.Present ["platform", "drive", "tenderdash"] ∧ c.Present ["platform", "drive", "abci", "docker"] ∧
        c.Present ["platform", "dapi", "api", "docker"]) (WithConsensus c) := by
  have hsome : (applyEdits (platformEdits (SystemConfigs.baseConfig home)) c).isSome ↔ _ := isSome_applyEdits_iff rfl
  simp only [platformEdits, Edit.assign, Edit.remove, List.forall_mem_cons] at hsome
  have hneeded : (applyEdits (platformEdits (SystemConfigs.baseConfig home)) c).isSome ↔
      c.Present ["platform", "drive", "tenderdash"] ∧ c.Present ["platform", "drive", "abci", "docker"] ∧
        c.Present ["platform", "dapi", "api", "docker"] := by
    constructor
    · intro h
      obtain ⟨htenderdash, habci, hapi, -⟩ := hsome.mp h
      exact ⟨htenderdash, habci, hapi⟩
    · intro ⟨htenderdash, habci, hapi⟩
      have hdrive : c.Present ["platform", "drive"] := @Present.of_append c ["platform", "drive"] ["tenderdash"] htenderdash
      have hplatform : c.Present ["platform"] := @Present.of_append c ["platform"] ["drive", "tenderdash"] htenderdash
      have hdapi : c.Present ["platform", "dapi"] := @Present.of_append c ["platform", "dapi"] ["api", "docker"] hapi
      exact hsome.mpr ⟨htenderdash, habci, hapi, htenderdash, hdrive, hdrive, hplatform, hdapi, fun _ hmem => absurd hmem List.not_mem_nil⟩
  refine ⟨hneeded, fun c' h => ?_⟩
  have hkind := kindAt_eq_nested (hneeded.mp (Option.isSome_of_eq_some h)).1 hgroup
  -- the first three edits, the consensus options, and the edits after them
  rw [← List.take_append_drop 3 (platformEdits _), applyEdits_append] at h
  obtain ⟨c₁, hbuilds, h⟩ := Option.bind_eq_some_iff.mp h
  obtain ⟨c₂, hconsensus, hrest⟩ := Option.bind_eq_some_iff.mp h
  have hsame := same_of_applyEdits hbuilds rfl
  refine hsame.withConsensus ((withConsensus_of_assign ?_ hconsensus).same (same_of_applyEdits hrest rfl))
  rw [hsame.kinds _ (by decide), hkind]

theorem keepsPlatform_congr (h : c'.get? "compose" = c.get? "compose") : KeepsPlatform c' ↔ KeepsPlatform c := by
  unfold KeepsPlatform
  rw [h]

/-- The images of the platform are set in every config. -/
theorem gives_images0190 (home : String) (c : Json) :
    Gives (applyEdits (imageEdits0190 (SystemConfigs.baseConfig home)) c)
      (c.Present ["core", "docker"] ∧ c.Present ["platform", "dapi", "api", "docker"] ∧
        c.Present ["platform", "drive", "abci", "docker"]) (Same c) := by
  refine (gives_applyEdits rfl rfl c).congr ?_
  simp [imageEdits0190, Edit.assign]

theorem gives_editConfig0190 (home : String) (c : Json) (hroot : c.kindAt [] = .nested)
    (hgroup : c.kindAt ["platform", "drive", "tenderdash"] ≠ .plain) :
    Gives (editConfig0190 (SystemConfigs.baseConfig home) c) (KeepsPlatform c ∧ ∀ path ∈ dockerPaths, c.Present path)
      (WithConsensus c) := by
  obtain ⟨c₁, happly⟩ := exists_apply_root "group" (fun old => some (old.getD .null)) hroot
  have hassign : applyEdits [.assignUndefined [] "group" .null] c = some c₁ := Option.bind_eq_some_iff.mpr ⟨c₁, happly, rfl⟩
  obtain ⟨hsame, hcompose⟩ := same_of_assignGroup hassign hroot
  have hroot₁ : c₁.kindAt [] = .nested := hsame.root.trans hroot
  unfold editConfig0190
  rw [hassign, Option.bind_some]
  by_cases hkeeps : KeepsPlatform c
  · obtain ⟨c₂, hremove, hsame'⟩ := removeCompose_of_keepsPlatform hroot₁ ((keepsPlatform_congr hcompose).mpr hkeeps)
    have hsame₂ := hsame.trans hsame'
    rw [hremove, Option.bind_some]
    cases hplatform : c₂.get? "platform" with
    | some platform =>
      rw [Option.isSome_some, if_pos rfl]
      have hplatformEdits := gives_platformEdits home c₂ (by rwa [hsame₂.kinds _ (by decide)])
      have himages : ∀ c₃, WithConsensus c₂ c₃ →
          Gives (applyEdits (imageEdits0190 (SystemConfigs.baseConfig home)) c₃) _ (WithConsensus c) :=
        fun c₃ hwith => ((gives_images0190 home c₃).congr (and_congr (hwith.present_iff (by decide) (by decide))
          (and_congr (hwith.present_iff (by decide) (by decide)) (hwith.present_iff (by decide) (by decide))))).imp
          fun c₄ hlast => hsame₂.withConsensus (hwith.same hlast)
      refine (hplatformEdits.bind himages).congr ?_
      simp only [dockerPaths, List.forall_mem_cons]
      rw [hsame₂.present_iff (by decide), hsame₂.present_iff (by decide), hsame₂.present_iff (by decide),
        hsame₂.present_iff (by decide)]
      tauto
    | none =>
      have hnot : ¬c₂.Present ["platform", "drive", "tenderdash"] := not_present_of_get?_none hplatform
      have hnot' : ¬c₂.Present ["platform", "dapi", "api", "docker"] := not_present_of_get?_none hplatform
      have himages := Option.not_isSome_iff_eq_none.mp fun h => hnot' ((gives_images0190 home c₂).isSome_iff.mp h).2.1
      rw [Option.isSome_none, if_neg Bool.false_ne_true]
      show Gives (applyEdits (imageEdits0190 _) c₂) _ _
      rw [himages]
      refine Gives.none fun ⟨_, hdocker⟩ => hnot ?_
      exact (hsame₂.present_iff (by decide)).mpr (hdocker _ (by decide))
  · have hnone : ((removeCompose c₁).bind fun c₂ => (applyEdits (if (c₂.get? "platform").isSome
        then platformEdits (SystemConfigs.baseConfig home) else []) c₂).bind fun c₃ =>
          applyEdits (imageEdits0190 (SystemConfigs.baseConfig home)) c₃) = none := by
      cases hremove : removeCompose c₁ with
      | none => rfl
      | some c₂ =>
        have hplatform := removeCompose_of_not_keepsPlatform hroot₁ (fun h => hkeeps ((keepsPlatform_congr hcompose).mp h)) hremove
        have hnot' : ¬c₂.Present ["platform", "dapi", "api", "docker"] := not_present_of_get?_none hplatform
        rw [Option.bind_some, hplatform, Option.isSome_none, if_neg Bool.false_ne_true]
        exact Option.not_isSome_iff_eq_none.mp fun h => hnot' ((gives_images0190 home c₂).isSome_iff.mp h).2.1
    rw [hnone]
    exact Gives.none fun h => hkeeps h.1

/-! ### The migrations to 0.20 and 0.21 -/

/-- The options that a config with a platform needs for 0.20.0. -/
def platformPaths0200 : List (List String) :=
  [consensusPath, ["platform", "drive", "tenderdash"], ["platform", "drive", "tenderdash", "docker"],
    ["platform", "drive", "abci", "docker"], ["platform", "dapi", "api", "docker"], ["core", "docker"],
    ["core", "sentinel", "docker"]]

theorem gives_platformEdits0200 (base c : Json) :
    Gives (applyEdits (platformEdits0200 base) c) (∀ path ∈ platformPaths0200, c.Present path) (Same c) := by
  refine (gives_applyEdits rfl rfl c).congr ?_
  simp only [platformEdits0200, platformPaths0200, consensusPath, Edit.assign, Edit.assignUndefined, coreImage, sentinelImage,
    List.forall_mem_cons]
  tauto

theorem gives_editConfig0200 (base c : Json) (hgroup : c.kindAt ["platform"] ≠ .plain) :
    Gives (editConfig0200 base c)
      (c.Present ["core"] ∧ (c.Present ["platform"] → ∀ path ∈ platformPaths0200, c.Present path)) (Same c) := by
  have hcore : Gives (applyEdits [.assignUndefined ["core"] "debug" (.number 0)] c) (c.Present ["core"]) (Same c) := by
    refine (gives_applyEdits rfl rfl c).congr ?_
    simp [Edit.assignUndefined]
  refine hcore.bind fun c₁ hsame => ?_
  have htruthy := @isTruthy_iff c₁ "platform" (by rwa [hsame.kinds _ (by decide)])
  rw [hsame.present_iff (by decide)] at htruthy
  have hneeded : (∀ path ∈ platformPaths0200, c₁.Present path) ↔ ∀ path ∈ platformPaths0200, c.Present path :=
    forall₂_congr fun path hpath => hsame.present_iff ((by decide : ∀ path ∈ platformPaths0200, path ∈ neededPaths) path hpath)
  by_cases hplatform : c.Present ["platform"]
  · rw [if_pos (htruthy.mpr hplatform)]
    refine ((gives_platformEdits0200 base c₁).congr ?_).imp fun _ => hsame.trans
    rw [hneeded]
    exact ⟨fun h _ => h, fun h => h hplatform⟩
  · rw [if_neg fun h => hplatform (htruthy.mp h)]
    exact (Gives.some hsame).congr (iff_of_true trivial fun h => absurd h hplatform)

theorem gives_testnetEdits (testnet c : Json) :
    Gives (applyEdits (testnetEdits testnet) c) (c.Present ["platform", "drive", "tenderdash", "p2p"]) (Same c) := by
  refine (gives_applyEdits rfl rfl c).congr ?_
  simp only [testnetEdits, Edit.assign, List.forall_mem_cons]
  constructor
  · exact fun h => h.1
  · intro h
    have htenderdash := @Present.of_append c ["platform", "drive", "tenderdash"] ["p2p"] h
    have hplatform := @Present.of_append c ["platform"] ["drive", "tenderdash", "p2p"] h
    exact ⟨h, htenderdash, hplatform, hplatform, hplatform, fun _ hmem => absurd hmem List.not_mem_nil⟩

theorem gives_testnetEdits_tail (testnet c : Json) :
    Gives (applyEdits (testnetEdits testnet).tail c) (c.Present ["platform", "drive", "tenderdash"]) (Same c) := by
  refine (gives_applyEdits rfl rfl c).congr ?_
  simp only [testnetEdits, Edit.assign, List.tail_cons, List.forall_mem_cons]
  constructor
  · exact fun h => h.1
  · intro h
    have hplatform := @Present.of_append c ["platform"] ["drive", "tenderdash"] h
    exact ⟨h, hplatform, hplatform, hplatform, fun _ hmem => absurd hmem List.not_mem_nil⟩

theorem gives_llmqType (config c : Json) :
    Gives (applyEdits [llmqType config] c) (c.Present ["platform", "drive", "abci", "validatorSet"]) (Same c) := by
  refine (gives_applyEdits rfl rfl c).congr ?_
  simp [llmqType, Edit.assign]

end Dashmate
