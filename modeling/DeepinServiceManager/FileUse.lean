import DeepinServiceManager.ConfigScans
import DeepinServiceManager.ListBuilding

namespace DeepinServiceManager.FileUse

open AcyclicRelations OrderedScans PluginLoader ServiceManager ConfigScans ListBuilding

variable {host : Host} {loader : PluginLoader} {heap : PolicyPtr → Policy} {i : PolicyPtr} {file : QFileInfo}

theorem collectGroups_append (host : Host) (heap : PolicyPtr → Policy) (files : List PolicyPtr) (i : PolicyPtr) :
    collectGroups host heap (files ++ [i]) = collectGroup host heap (collectGroups host heap files) i := by
  rw [collectGroups, List.foldl_append]
  rfl

theorem collectGroup_eq (groups : List String) :
    collectGroup host heap groups i = groups ∨
      collectGroup host heap groups i = groups ++ [(heap i).group] ∧ (heap i).matchesEnvironment host.env = true ∧
        (heap i).group ∉ groups ∧ (heap i).group ≠ "" := by
  unfold collectGroup
  split_ifs with hmatch hnew
  · exact .inl rfl
  · refine .inr ⟨rfl, by simpa using hmatch, ?_⟩
    simpa [String.isEmpty_iff] using hnew
  · exact .inl rfl

theorem mem_collectGroups {files : List PolicyPtr} {group : String} : group ∈ collectGroups host heap files ↔
    group ≠ "" ∧ ∃ j ∈ files, (heap j).matchesEnvironment host.env = true ∧ (heap j).group = group := by
  induction files using List.reverseRecOn with
  | nil => simp [collectGroups]
  | append_singleton files i ih =>
    rw [collectGroups_append, collectGroup]
    simp only [List.mem_append, List.mem_singleton, or_and_right, exists_or, exists_eq_left, and_or_left, ← ih]
    split_ifs with hmatch hnew
    · simp only [Bool.not_eq_true'] at hmatch
      simp [hmatch]
    · simp only [Bool.and_eq_true, Bool.not_eq_true', String.isEmpty_eq_false_iff] at hnew
      simp only [Bool.not_eq_true', Bool.not_eq_false] at hmatch
      simp only [List.mem_append, List.mem_singleton, hmatch, true_and]
      constructor
      · rintro (h | rfl)
        · exact .inl h
        · exact .inr ⟨hnew.2, rfl⟩
      · rintro (h | ⟨-, rfl⟩)
        · exact .inl h
        · exact .inr rfl
    · constructor
      · exact .inl
      · rintro (h | ⟨hne, -, rfl⟩)
        · exact h
        · simp only [Bool.and_eq_true, Bool.not_eq_true', not_and, Bool.not_eq_false, String.isEmpty_iff] at hnew
          by_contra h
          exact hne (hnew (by simpa using h))

theorem collectGroups_nodup (files : List PolicyPtr) : (collectGroups host heap files).Nodup := by
  induction files using List.reverseRecOn with
  | nil => exact List.nodup_nil
  | append_singleton files i ih =>
    rw [collectGroups_append]
    rcases collectGroup_eq (collectGroups host heap files) with h | ⟨h, -, hnew, -⟩
    · rwa [h]
    · rw [h]
      exact nodup_snoc ih hnew

def AddsGroup (host : Host) (heap : PolicyPtr → Policy) (files : List PolicyPtr) (i : PolicyPtr) : Prop :=
  ∃ pre post, files = pre ++ i :: post ∧
    collectGroup host heap (collectGroups host heap pre) i ≠ collectGroups host heap pre

theorem addsGroup_iff {files : List PolicyPtr} (hsorted : files.Pairwise (· < ·)) :
    AddsGroup host heap files i ↔ i ∈ files ∧ (heap i).matchesEnvironment host.env = true ∧ (heap i).group ≠ "" ∧
      ∀ j ∈ files, j < i → (heap j).matchesEnvironment host.env = true → (heap j).group ≠ (heap i).group := by
  constructor
  · rintro ⟨pre, post, rfl, hne⟩
    obtain ⟨-, hmatch, hnew, hgroup⟩ := (collectGroup_eq (collectGroups host heap pre)).resolve_left hne
    refine ⟨by simp, hmatch, hgroup, fun j hj hlt hj' heq => hnew ?_⟩
    exact mem_collectGroups.mpr ⟨hgroup, j, (mem_before_iff hsorted).mpr ⟨hj, hlt⟩, hj', heq⟩
  · rintro ⟨hi, hmatch, hgroup, hfirst⟩
    obtain ⟨pre, post, rfl⟩ := List.append_of_mem hi
    refine ⟨pre, post, rfl, fun heq => ?_⟩
    have hmem : (heap i).group ∈ collectGroups host heap (pre ++ [i]) :=
      mem_collectGroups.mpr ⟨hgroup, i, by simp, hmatch, rfl⟩
    rw [collectGroups_append, heq] at hmem
    obtain ⟨-, j, hj, hj', hjg⟩ := mem_collectGroups.mp hmem
    obtain ⟨hjmem, hlt⟩ := (mem_before_iff hsorted).mp hj
    exact hfirst j hjmem hlt hj' hjg

/-- No scan uses file `i`, whatever memory its objects are given and whichever timers fire. -/
structure NeverUsed (host : Host) (loader : PluginLoader) (i : PolicyPtr) : Prop where
  loadByGroup : ∀ memory timerFires group loaded,
    loader.loadByGroup host memory timerFires group = some loaded → i ∉ loaded.created
  loadByName : ∀ memory name, i ∉ (loader.loadByName host memory name).created
  getGroup : ∀ memory name, loader.getGroupFile host memory name ≠ some i
  initGroup : ∀ memory, ¬ AddsGroup host (parsedPolicys (host.configDir loader.m_type) memory)
    (configFiles (host.configDir loader.m_type)) i

theorem created_used {memory : PolicyPtr → Uninitialised} {timerFires : ℤ → Bool} {group : String} {loaded : Loaded}
    (hload : loader.loadByGroup host memory timerFires group = some loaded) (hi : i ∈ loaded.created) :
    ¬ NeverUsed host loader i := fun h => h.loadByGroup memory timerFires group loaded hload hi

/-- The files before `i` keep every scan from it, and its group is never started. -/
structure Shadowed (host : Host) (loader : PluginLoader) (i : PolicyPtr) : Prop where
  unsorted : ∀ memory, let policy := parsedPolicys (host.configDir loader.m_type) memory i
    loader.m_isResident = policy.isResident → qtVersionOk host policy = true →
      ¬ Acyclic (GroupDepends host loader memory policy.group) ∨ ¬ GroupFits host loader memory policy.group
  accepted : ∀ memory, let heap := parsedPolicys (host.configDir loader.m_type) memory
    qtVersionOk host (heap i) = true →
      ∃ j ∈ configFiles (host.configDir loader.m_type), j < i ∧ nameAccepts host (heap i).name (heap j) = true
  named : ∀ memory, let heap := parsedPolicys (host.configDir loader.m_type) memory
    ∃ j ∈ configFiles (host.configDir loader.m_type), j < i ∧ (heap j).name = (heap i).name
  grouped : ∀ memory, let heap := parsedPolicys (host.configDir loader.m_type) memory
    (heap i).group = "" ∨ ∃ j ∈ configFiles (host.configDir loader.m_type), j < i ∧
      (heap j).matchesEnvironment host.env = true ∧ (heap j).group = (heap i).group

theorem neverUsed_of_mismatch (hmismatch : ∀ memory,
    (parsedPolicys (host.configDir loader.m_type) memory i).matchesEnvironment host.env = false) :
    NeverUsed host loader i := by
  constructor
  · intro memory timerFires group loaded hload hi
    obtain ⟨-, -, hmatch, -⟩ := groupAccepts_iff.mp (mem_groupPolicys.mp (loadByGroup_created hload hi).1).2
    rw [hmismatch] at hmatch
    cases hmatch
  · intro memory name hi
    obtain ⟨-, haccept, -⟩ := loadByNameFile_eq.mp (mem_loadByName.mp hi)
    rw [nameAccepts_iff, hmismatch] at haccept
    simp at haccept
  · intro memory name hi
    have hmatch := (getGroupFile_eq.mp hi).2
    rw [hmismatch] at hmatch
    cases hmatch
  · intro memory hi
    have hmatch := ((addsGroup_iff (configFiles_sorted _)).mp hi).2.1
    rw [hmismatch] at hmatch
    cases hmatch

section

variable (hi : i ∈ configFiles (host.configDir loader.m_type)) (hmatch : ∀ memory,
  (parsedPolicys (host.configDir loader.m_type) memory i).matchesEnvironment host.env = true)

include hi hmatch

theorem not_created_iff : (∀ memory timerFires group loaded,
      loader.loadByGroup host memory timerFires group = some loaded → i ∉ loaded.created) ↔
    ∀ memory, let policy := parsedPolicys (host.configDir loader.m_type) memory i
      loader.m_isResident = policy.isResident → qtVersionOk host policy = true →
        ¬ Acyclic (GroupDepends host loader memory policy.group) ∨ ¬ GroupFits host loader memory policy.group := by
  constructor
  · intro h memory policy hresident hqt
    rw [← not_and_or]
    rintro ⟨hac, hfits⟩
    have hkept : i ∈ groupPolicys host loader memory policy.group :=
      mem_groupPolicys.mpr ⟨hi, groupAccepts_iff.mpr ⟨rfl, hresident, hmatch memory, hqt⟩⟩
    obtain ⟨sorted, hperm, hload⟩ := loadByGroup_all (fun _ => true) hfits hac (fun _ _ => rfl)
    exact h memory (fun _ => true) policy.group _ hload (hperm.mem_iff.mpr hkept)
  · intro h memory timerFires group loaded hload hmem
    obtain ⟨hkept, hac⟩ := loadByGroup_created hload hmem
    obtain ⟨rfl, hresident, -, hqt⟩ := groupAccepts_iff.mp (mem_groupPolicys.mp hkept).2
    rcases h memory hresident hqt with hcyc | hover
    · exact hcyc hac
    · exact hover (loadByGroup_defined hload)

theorem not_loadByName_iff : (∀ memory name, i ∉ (loader.loadByName host memory name).created) ↔
    ∀ memory, let heap := parsedPolicys (host.configDir loader.m_type) memory
      qtVersionOk host (heap i) = true →
        ∃ j ∈ configFiles (host.configDir loader.m_type), j < i ∧ nameAccepts host (heap i).name (heap j) = true := by
  constructor
  · intro h memory heap hqt
    have hnot := h memory (heap i).name
    rw [mem_loadByName, loadByNameFile_eq] at hnot
    simp only [not_and, not_forall, exists_prop, Bool.not_eq_false] at hnot
    apply hnot hi
    exact nameAccepts_iff.mpr ⟨rfl, hmatch memory, hqt⟩
  · intro h memory name hmem
    obtain ⟨-, haccept, hfirst⟩ := loadByNameFile_eq.mp (mem_loadByName.mp hmem)
    obtain ⟨rfl, -, hqt⟩ := nameAccepts_iff.mp haccept
    obtain ⟨j, hj, hlt, hj'⟩ := h memory hqt
    rw [hfirst j hj hlt] at hj'
    cases hj'

theorem not_getGroupFile_iff : (∀ memory name, loader.getGroupFile host memory name ≠ some i) ↔
    ∀ memory, let heap := parsedPolicys (host.configDir loader.m_type) memory
      ∃ j ∈ configFiles (host.configDir loader.m_type), j < i ∧ (heap j).name = (heap i).name := by
  constructor
  · intro h memory heap
    have hnot := h memory (heap i).name
    rw [ne_eq, getGroupFile_eq, FirstNamed] at hnot
    by_contra hfirst
    push Not at hfirst
    exact hnot ⟨⟨hi, rfl, hfirst⟩, hmatch memory⟩
  · intro h memory name hmem
    obtain ⟨⟨-, rfl, hfirst⟩, -⟩ := getGroupFile_eq.mp hmem
    obtain ⟨j, hj, hlt, hj'⟩ := h memory
    exact hfirst j hj hlt hj'

theorem not_addsGroup_iff : (∀ memory, ¬ AddsGroup host (parsedPolicys (host.configDir loader.m_type) memory)
      (configFiles (host.configDir loader.m_type)) i) ↔
    ∀ memory, let heap := parsedPolicys (host.configDir loader.m_type) memory
      (heap i).group = "" ∨ ∃ j ∈ configFiles (host.configDir loader.m_type), j < i ∧
        (heap j).matchesEnvironment host.env = true ∧ (heap j).group = (heap i).group := by
  constructor
  · intro h memory heap
    have hnot := h memory
    rw [addsGroup_iff (configFiles_sorted _)] at hnot
    by_contra hfirst
    push Not at hfirst
    exact hnot ⟨hi, hmatch memory, hfirst⟩
  · intro h memory hmem
    obtain ⟨-, -, hgroup, hfirst⟩ := (addsGroup_iff (configFiles_sorted _)).mp hmem
    rcases h memory with hempty | ⟨j, hj, hlt, hj', hjg⟩
    · exact hgroup hempty
    · exact hfirst j hj hlt hj' hjg

theorem neverUsed_iff_shadowed : NeverUsed host loader i ↔ Shadowed host loader i := by
  constructor
  · rintro ⟨hgroup, hname, hget, hinit⟩
    exact ⟨(not_created_iff hi hmatch).mp hgroup, (not_loadByName_iff hi hmatch).mp hname,
      (not_getGroupFile_iff hi hmatch).mp hget, (not_addsGroup_iff hi hmatch).mp hinit⟩
  · rintro ⟨hgroup, hname, hget, hinit⟩
    exact ⟨(not_created_iff hi hmatch).mpr hgroup, (not_loadByName_iff hi hmatch).mpr hname,
      (not_getGroupFile_iff hi hmatch).mpr hget, (not_addsGroup_iff hi hmatch).mpr hinit⟩

end

end DeepinServiceManager.FileUse
