import DeepinServiceManager.FileUse
import DeepinServiceManager.NameLookup
import DeepinServiceManager.TwinDirectories

namespace DeepinServiceManager.SessionTypes

open AcyclicRelations ConfigScans OrderedScans PluginLoader ServiceManager SortPolicy TwinDirectories

def systemFiles (host : Host) : List PolicyPtr := configFiles (host.configDir .SystemBus)

def systemHeap (host : Host) (memory : PolicyPtr → Uninitialised) : PolicyPtr → Policy :=
  parsedPolicys (host.configDir .SystemBus) memory

def matched (host : Host) (memory : PolicyPtr → Uninitialised) (i : PolicyPtr) : Bool :=
  (systemHeap host memory i).matchesEnvironment host.env

def loader (resident : Bool) : PluginLoader := ⟨.SystemBus, resident⟩

def SameCreated (l l' : Option Loaded) : Prop :=
  ∀ a b, l = some a → l' = some b → ∀ i, i ∈ a.created ↔ i ∈ b.created

/-- The four scans of the system bus have the same outcome on both hosts. -/
structure SameScans (host host' : Host) (memory : PolicyPtr → Uninitialised) : Prop where
  initGroup : ∀ group, group ∈ collectGroups host (systemHeap host memory) (systemFiles host) ↔
    group ∈ collectGroups host' (systemHeap host' memory) (systemFiles host')
  getGroup : ∀ resident name, (loader resident).getGroup host memory name = (loader resident).getGroup host' memory name
  loadByName : ∀ resident name i, i ∈ ((loader resident).loadByName host memory name).created ↔
    i ∈ ((loader resident).loadByName host' memory name).created
  loadByGroup : ∀ resident timerFires group, SameCreated
    ((loader resident).loadByGroup host memory timerFires group)
    ((loader resident).loadByGroup host' memory timerFires group)

/-- The loader has nothing to start in the group: it keeps no policy, or their dependencies are cyclic. -/
def StartsNone (host : Host) (memory : PolicyPtr → Uninitialised) (resident : Bool) (group : String) : Prop :=
  groupPolicys host (loader resident) memory group = [] ∨
    ¬ Acyclic (GroupDepends host (loader resident) memory group)

/-- Neither run starts anything in the group, or in one of them the group has more dependency edges than policies, so
that the load is undefined. -/
def NeitherStarts (host host' : Host) (memory : PolicyPtr → Uninitialised) (resident : Bool) (group : String) : Prop :=
  StartsNone host memory resident group ∧ StartsNone host' memory resident group ∨
    ¬ GroupFits host (loader resident) memory group ∨ ¬ GroupFits host' (loader resident) memory group

/-- Other files hide the verdict on file `i` from every scan. -/
structure Hidden (host host' : Host) (memory : PolicyPtr → Uninitialised) (i : PolicyPtr) : Prop where
  initGroup : (systemHeap host memory i).group ≠ "" → ∃ j ∈ systemFiles host,
    (systemHeap host memory j).group = (systemHeap host memory i).group ∧
      (matched host memory i = false → matched host memory j = true) ∧
      (matched host' memory i = false → matched host' memory j = true)
  getGroup : FirstNamed (host.configDir .SystemBus) memory (systemHeap host memory i).name i →
    (systemHeap host memory i).group = ""
  loadByName : qtVersionOk host (systemHeap host memory i) = true → ∃ j ∈ systemFiles host, j < i ∧
    nameAccepts host (systemHeap host memory i).name (systemHeap host memory j) = true ∧ matched host' memory j = true
  loadByGroup : qtVersionOk host (systemHeap host memory i) = true →
    NeitherStarts host host' memory (systemHeap host memory i).isResident (systemHeap host memory i).group

variable {host host' : Host} {memory : PolicyPtr → Uninitialised}

theorem twin_files (h : Twin host host') : systemFiles host' = systemFiles host := configFiles_same h.files

theorem twin_heap (h : Twin host host') (memory : PolicyPtr → Uninitialised) (i : PolicyPtr) :
    ∃ c, systemHeap host' memory i = { systemHeap host memory i with condition := c } :=
  parsedPolicys_same h.files memory i

theorem twin_settings (h : Twin host host') (memory : PolicyPtr → Uninitialised) (i : PolicyPtr) :
    (systemHeap host' memory i).SameSettings (systemHeap host memory i) := by
  obtain ⟨c, hc⟩ := twin_heap h memory i
  rw [hc]
  constructor <;> rfl

theorem twin_isResident (h : Twin host host') (memory : PolicyPtr → Uninitialised) (i : PolicyPtr) :
    (systemHeap host' memory i).isResident = (systemHeap host memory i).isResident :=
  Policy.isResident_eq (twin_settings h memory i).startType

theorem twin_qtVersionOk (h : Twin host host') (memory : PolicyPtr → Uninitialised) (i : PolicyPtr) :
    qtVersionOk host' (systemHeap host' memory i) = qtVersionOk host (systemHeap host memory i) := by
  rw [qtVersionOk, qtVersionOk, checkPluginQtVersion, checkPluginQtVersion, h.pluginQtVersion,
    (twin_settings h memory i).sdkType, (twin_settings h memory i).pluginPath]

section InitGroup

variable {files : List PolicyPtr} {V V' : PolicyPtr → Bool} {label : PolicyPtr → String}

def Collected (files : List PolicyPtr) (V : PolicyPtr → Bool) (label : PolicyPtr → String) (group : String) : Prop :=
  group ≠ "" ∧ ∃ j ∈ files, V j = true ∧ label j = group

theorem collected_transfer (hdiffer : ∀ i ∈ files, V i ≠ V' i → label i ≠ "" →
      ∃ j ∈ files, label j = label i ∧ (V' i = false → V' j = true)) {group : String}
    (h : Collected files V label group) : Collected files V' label group := by
  obtain ⟨hgroup, i, hi, hV, rfl⟩ := h
  refine ⟨hgroup, ?_⟩
  cases hV' : V' i with
  | true => exact ⟨i, hi, hV', rfl⟩
  | false =>
    obtain ⟨j, hj, hlabel, hVj⟩ := hdiffer i hi (by rw [hV, hV']; decide) hgroup
    exact ⟨j, hj, hVj hV', hlabel⟩

theorem collected_step (hsame : ∀ group, Collected files V label group → Collected files V' label group)
    {i : PolicyPtr} (hi : i ∈ files) (hV : V i = true) (hlabel : label i ≠ "") :
    ∃ j ∈ files, label j = label i ∧ V' j = true := by
  obtain ⟨-, j, hj, hVj, hjg⟩ := hsame (label i) ⟨hlabel, i, hi, hV, rfl⟩
  exact ⟨j, hj, hjg, hVj⟩

theorem collected_same_iff : (∀ group, Collected files V label group ↔ Collected files V' label group) ↔
    ∀ i ∈ files, V i ≠ V' i → label i ≠ "" → ∃ j ∈ files, label j = label i ∧
      (V i = false → V j = true) ∧ (V' i = false → V' j = true) := by
  constructor
  · intro hsame i hi hne hlabel
    cases hV : V i with
    | true =>
      obtain ⟨j, hj, hjg, hVj⟩ := collected_step (fun group => (hsame group).mp) hi hV hlabel
      exact ⟨j, hj, hjg, fun h => (nomatch h), fun _ => hVj⟩
    | false =>
      have hV' : V' i = true := by simpa [hV] using hne.symm
      obtain ⟨j, hj, hjg, hVj⟩ := collected_step (fun group => (hsame group).mpr) hi hV' hlabel
      exact ⟨j, hj, hjg, fun _ => hVj, fun h => by rw [hV'] at h; cases h⟩
  · intro hdiffer group
    constructor
    · apply collected_transfer
      intro i hi hne hlabel
      obtain ⟨j, hj, hjg, -, hVj⟩ := hdiffer i hi hne hlabel
      exact ⟨j, hj, hjg, hVj⟩
    · apply collected_transfer
      intro i hi hne hlabel
      obtain ⟨j, hj, hjg, hVj, -⟩ := hdiffer i hi hne.symm hlabel
      exact ⟨j, hj, hjg, hVj⟩

end InitGroup

theorem mem_collectGroups_iff (host : Host) (memory : PolicyPtr → Uninitialised) (group : String) :
    group ∈ collectGroups host (systemHeap host memory) (systemFiles host) ↔
      Collected (systemFiles host) (matched host memory) (fun i => (systemHeap host memory i).group) group :=
  FileUse.mem_collectGroups

theorem initGroup_same_iff (h : Twin host host') (memory : PolicyPtr → Uninitialised) :
    (∀ group, group ∈ collectGroups host (systemHeap host memory) (systemFiles host) ↔
      group ∈ collectGroups host' (systemHeap host' memory) (systemFiles host')) ↔
    ∀ i ∈ systemFiles host, matched host memory i ≠ matched host' memory i →
      (systemHeap host memory i).group ≠ "" → ∃ j ∈ systemFiles host,
        (systemHeap host memory j).group = (systemHeap host memory i).group ∧
          (matched host memory i = false → matched host memory j = true) ∧
          (matched host' memory i = false → matched host' memory j = true) := by
  have hlabel : (fun i => (systemHeap host' memory i).group) = fun i => (systemHeap host memory i).group :=
    funext fun i => (twin_settings h memory i).group
  have hcollect : ∀ group, group ∈ collectGroups host' (systemHeap host' memory) (systemFiles host') ↔
      Collected (systemFiles host) (matched host' memory) (fun i => (systemHeap host memory i).group) group := by
    intro group
    rw [mem_collectGroups_iff host', twin_files h, hlabel]
  simp only [mem_collectGroups_iff host memory, hcollect]
  exact collected_same_iff

theorem firstNamed_twin (h : Twin host host') {name : String} {i : PolicyPtr} :
    FirstNamed (host'.configDir .SystemBus) memory name i ↔ FirstNamed (host.configDir .SystemBus) memory name i := by
  have hfiles := twin_files h
  have hname (j : PolicyPtr) := (twin_settings h memory j).name
  unfold systemFiles at hfiles
  unfold systemHeap at hname
  simp only [FirstNamed, hfiles, hname]

theorem getGroup_of_firstNamed (host : Host) (resident : Bool) {name : String} {f : PolicyPtr}
    (hf : FirstNamed (host.configDir .SystemBus) memory name f) : (loader resident).getGroup host memory name =
      if matched host memory f then (systemHeap host memory f).group else "" := by
  split_ifs with hmatch
  · exact NameLookup.getGroup_firstNamed (loader resident) hf hmatch
  · by_contra hne
    obtain ⟨g, hg, hg'⟩ := NameLookup.getGroup_nonempty memory hne
    obtain rfl := hf.unique hg
    exact hmatch hg'

theorem getGroup_unnamed (host : Host) (resident : Bool) {name : String}
    (hnone : ∀ f, ¬ FirstNamed (host.configDir .SystemBus) memory name f) :
    (loader resident).getGroup host memory name = "" := by
  by_contra hne
  obtain ⟨f, hf, -⟩ := NameLookup.getGroup_nonempty memory hne
  exact hnone f hf

theorem getGroup_same_iff (h : Twin host host') (memory : PolicyPtr → Uninitialised) :
    (∀ resident name, (loader resident).getGroup host memory name = (loader resident).getGroup host' memory name) ↔
      ∀ i ∈ systemFiles host, matched host memory i ≠ matched host' memory i →
        FirstNamed (host.configDir .SystemBus) memory (systemHeap host memory i).name i →
        (systemHeap host memory i).group = "" := by
  have hgroup (i : PolicyPtr) := (twin_settings h memory i).group
  constructor
  · intro hsame i _ hne hf
    have heq := hsame true (systemHeap host memory i).name
    rw [getGroup_of_firstNamed host true hf, getGroup_of_firstNamed host' true ((firstNamed_twin h).mpr hf),
      hgroup] at heq
    cases hV : matched host memory i with
    | true =>
      have hV' : matched host' memory i = false := by simpa [hV] using hne.symm
      simpa [hV, hV'] using heq
    | false =>
      have hV' : matched host' memory i = true := by simpa [hV] using hne.symm
      simpa [hV, hV'] using heq.symm
  · intro hdiffer resident name
    by_cases hnamed : ∃ f, FirstNamed (host.configDir .SystemBus) memory name f
    · obtain ⟨f, hf⟩ := hnamed
      rw [getGroup_of_firstNamed host resident hf,
        getGroup_of_firstNamed host' resident ((firstNamed_twin h).mpr hf), hgroup]
      by_cases hV : matched host memory f = matched host' memory f
      · rw [hV]
      · have hname : (systemHeap host memory f).name = name := hf.2.1
        rw [hdiffer f hf.1 hV (hname.symm ▸ hf)]
        simp
    · rw [not_exists] at hnamed
      rw [getGroup_unnamed host resident hnamed,
        getGroup_unnamed host' resident (fun f hf => hnamed f ((firstNamed_twin h).mp hf))]

theorem nameAccepts_twin (h : Twin host host') (memory : PolicyPtr → Uninitialised) (name : String) (i : PolicyPtr) :
    nameAccepts host' name (systemHeap host' memory i) =
      ((systemHeap host memory i).name = name && matched host' memory i &&
        qtVersionOk host (systemHeap host memory i)) := by
  rw [nameAccepts, (twin_settings h memory i).name, twin_qtVersionOk h, matched]

theorem mem_loadByName_same_iff {resident : Bool} {name : String} :
    (∀ i, i ∈ ((loader resident).loadByName host memory name).created ↔
      i ∈ ((loader resident).loadByName host' memory name).created) ↔
    (loader resident).loadByNameFile host memory name = (loader resident).loadByNameFile host' memory name := by
  simp only [mem_loadByName]
  exact ⟨Option.ext, fun heq i => by rw [heq]⟩

theorem loadByNameFile_same_iff (h : Twin host host') (memory : PolicyPtr → Uninitialised) (resident : Bool)
    (name : String) :
    (loader resident).loadByNameFile host memory name = (loader resident).loadByNameFile host' memory name ↔
      ∀ i ∈ systemFiles host, nameAccepts host name (systemHeap host memory i) ≠
        nameAccepts host' name (systemHeap host' memory i) → ∃ j ∈ systemFiles host, j < i ∧
          nameAccepts host name (systemHeap host memory j) = true ∧
          nameAccepts host' name (systemHeap host' memory j) = true := by
  have hfile' : (loader resident).loadByNameFile host' memory name =
      (systemFiles host).find? (fun i => nameAccepts host' name (systemHeap host' memory i)) := by
    rw [← twin_files h]
    rfl
  rw [hfile']
  exact find?_same_iff (configFiles_sorted _) _ _

theorem loadByName_same_iff (h : Twin host host') (memory : PolicyPtr → Uninitialised) :
    (∀ resident name i, i ∈ ((loader resident).loadByName host memory name).created ↔
      i ∈ ((loader resident).loadByName host' memory name).created) ↔
    ∀ i ∈ systemFiles host, matched host memory i ≠ matched host' memory i →
      qtVersionOk host (systemHeap host memory i) = true → ∃ j ∈ systemFiles host, j < i ∧
        nameAccepts host (systemHeap host memory i).name (systemHeap host memory j) = true ∧
        matched host' memory j = true := by
  simp only [mem_loadByName_same_iff, loadByNameFile_same_iff h]
  constructor
  · intro hsame i hi hne hqt
    have hdiffer : nameAccepts host (systemHeap host memory i).name (systemHeap host memory i) ≠
        nameAccepts host' (systemHeap host memory i).name (systemHeap host' memory i) := by
      rw [nameAccepts_twin h, nameAccepts, hqt]
      simpa [matched] using hne
    obtain ⟨j, hj, hlt, haccepts, haccepts'⟩ := hsame true _ i hi hdiffer
    rw [nameAccepts_twin h] at haccepts'
    simp only [Bool.and_eq_true] at haccepts'
    exact ⟨j, hj, hlt, haccepts, haccepts'.1.2⟩
  · intro hdiffer _ name i hi hne
    rw [nameAccepts_twin h] at hne
    have hname : (systemHeap host memory i).name = name := by
      by_contra hname
      simp [nameAccepts, hname] at hne
    have hqt : qtVersionOk host (systemHeap host memory i) = true := by
      by_contra hqt
      rw [Bool.not_eq_true] at hqt
      simp [nameAccepts, hqt] at hne
    have hV : matched host memory i ≠ matched host' memory i := by
      intro hV
      apply hne
      rw [nameAccepts, ← hV, matched]
    subst hname
    obtain ⟨j, hj, hlt, haccepts, hVj⟩ := hdiffer i hi hV hqt
    refine ⟨j, hj, hlt, haccepts, ?_⟩
    rw [nameAccepts_twin h, hVj]
    obtain ⟨hname, -, hqtj⟩ := nameAccepts_iff.mp haccepts
    simp [hname, hqtj]

def kept (host : Host) (memory : PolicyPtr → Uninitialised) (resident : Bool) (group : String) : List PolicyPtr :=
  groupPolicys host (loader resident) memory group

variable {resident : Bool} {group : String}

theorem kept_twin (h : Twin host host') : kept host' memory resident group = (systemFiles host).filter (fun i =>
    (systemHeap host memory i).group = group && resident = (systemHeap host memory i).isResident &&
      matched host' memory i && qtVersionOk host (systemHeap host memory i)) := by
  rw [kept, groupPolicys, ← twin_files h]
  apply List.filter_congr
  intro i _
  have hheap : parsedPolicys (host'.configDir (loader resident).m_type) memory i = systemHeap host' memory i := rfl
  rw [hheap, groupAccepts, (twin_settings h memory i).group, twin_isResident h, twin_qtVersionOk h]
  rfl

theorem sortPolicy_twin (h : Twin host host') (policys : List PolicyPtr) :
    sortPolicy (systemHeap host' memory) policys = sortPolicy (systemHeap host memory) policys := by
  rw [sortPolicy, sortPolicy, dependencyEdges_congr (fun i => (twin_settings h memory i).name)
    (fun i => (twin_settings h memory i).dependencies)]

theorem startLoop_twin (h : Twin host host') (timerFires : ℤ → Bool) (sorted : List PolicyPtr) :
    startLoop timerFires (systemHeap host' memory) sorted = startLoop timerFires (systemHeap host memory) sorted := by
  simp only [startLoop, startDelayMsec, (twin_settings h memory _).startDelay]

theorem loadByGroup_map (host : Host) (memory : PolicyPtr → Uninitialised) (resident : Bool) (group : String)
    (timerFires : ℤ → Bool) : ((loader resident).loadByGroup host memory timerFires group).map Loaded.created =
      (sortPolicy (systemHeap host memory) (kept host memory resident group)).map
        (startLoop timerFires (systemHeap host memory)) := by
  have hheap : parsedPolicys (host.configDir (loader resident).m_type) memory = systemHeap host memory := rfl
  simp only [PluginLoader.loadByGroup, hheap, kept]
  cases sortPolicy (systemHeap host memory) (groupPolicys host (loader resident) memory group) <;> rfl

theorem loadByGroup_twin (h : Twin host host')
    (hkept : kept host' memory resident group = kept host memory resident group) (timerFires : ℤ → Bool) :
    SameCreated ((loader resident).loadByGroup host memory timerFires group)
      ((loader resident).loadByGroup host' memory timerFires group) := by
  intro a b ha hb i
  have hcreated : startLoop timerFires (systemHeap host' memory) = startLoop timerFires (systemHeap host memory) :=
    funext fun sorted => startLoop_twin h timerFires sorted
  have hmap := loadByGroup_map host' memory resident group timerFires
  rw [hkept, sortPolicy_twin h, hcreated, ← loadByGroup_map, ha, hb] at hmap
  rw [Option.some.inj hmap]

/-- With timers that fire the loader starts what it keeps, unless the dependencies are cyclic. -/
theorem loadByGroup_fires (hfits : GroupFits host (loader resident) memory group) :
    ∃ loaded, (loader resident).loadByGroup host memory (fun _ => true) group = some loaded ∧
      ∀ i, i ∈ loaded.created ↔ i ∈ kept host memory resident group ∧
        Acyclic (GroupDepends host (loader resident) memory group) := by
  obtain ⟨sorted, hload, hac, hcyc⟩ := loadByGroup_spec (fun _ => true) hfits
  refine ⟨_, hload, fun i => ?_⟩
  have hall (heap : PolicyPtr → Policy) : startLoop (fun _ => true) heap sorted = sorted :=
    List.takeWhile_eq_self_iff.mpr (fun _ _ => rfl)
  simp only [hall]
  by_cases h : Acyclic (GroupDepends host (loader resident) memory group)
  · rw [(hac h).mem_iff]
    exact ⟨fun hi => ⟨hi, h⟩, And.left⟩
  · simp [hcyc h, h]

theorem startsNone_created (hnone : StartsNone host memory resident group) {timerFires : ℤ → Bool} {loaded : Loaded}
    (hload : (loader resident).loadByGroup host memory timerFires group = some loaded) : loaded.created = [] := by
  apply List.eq_nil_iff_forall_not_mem.mpr
  intro i hi
  obtain ⟨hkept, hac⟩ := loadByGroup_created hload hi
  rw [hnone.resolve_right (not_not_intro hac)] at hkept
  cases hkept

theorem neitherStarts_of_lost (hsame : SameCreated ((loader resident).loadByGroup host memory (fun _ => true) group)
      ((loader resident).loadByGroup host' memory (fun _ => true) group)) {i : PolicyPtr}
    (hi : i ∈ kept host memory resident group) (hi' : i ∉ kept host' memory resident group) :
    NeitherStarts host host' memory resident group := by
  by_cases hfits : GroupFits host (loader resident) memory group
  swap
  · exact .inr (.inl hfits)
  by_cases hfits' : GroupFits host' (loader resident) memory group
  swap
  · exact .inr (.inr hfits')
  obtain ⟨a, ha, hmem⟩ := loadByGroup_fires hfits
  obtain ⟨b, hb, hmem'⟩ := loadByGroup_fires hfits'
  have hcreated := hsame a b ha hb
  have hcyc : ¬ Acyclic (GroupDepends host (loader resident) memory group) := by
    intro hac
    exact hi' ((hmem' i).mp ((hcreated i).mp ((hmem i).mpr ⟨hi, hac⟩))).1
  refine .inl ⟨.inr hcyc, ?_⟩
  by_cases hac' : Acyclic (GroupDepends host' (loader resident) memory group)
  · left
    apply List.eq_nil_iff_forall_not_mem.mpr
    intro j hj
    exact hcyc ((hmem j).mp ((hcreated j).mpr ((hmem' j).mpr ⟨hj, hac'⟩))).2
  · exact .inr hac'

theorem NeitherStarts.symm (h : NeitherStarts host host' memory resident group) :
    NeitherStarts host' host memory resident group := by
  rcases h with hnone | hover | hover
  · exact .inl hnone.symm
  · exact .inr (.inr hover)
  · exact .inr (.inl hover)

theorem NeitherStarts.sameCreated (h : NeitherStarts host host' memory resident group) (timerFires : ℤ → Bool) :
    SameCreated ((loader resident).loadByGroup host memory timerFires group)
      ((loader resident).loadByGroup host' memory timerFires group) := by
  intro a b ha hb i
  rcases h with ⟨hnone, hnone'⟩ | hover | hover
  · rw [startsNone_created hnone ha, startsNone_created hnone' hb]
  · exact absurd (loadByGroup_defined ha) hover
  · exact absurd (loadByGroup_defined hb) hover

theorem mem_kept (host : Host) (memory : PolicyPtr → Uninitialised) (resident : Bool) (group : String)
    (i : PolicyPtr) : i ∈ kept host memory resident group ↔ i ∈ systemFiles host ∧
      (systemHeap host memory i).group = group ∧ resident = (systemHeap host memory i).isResident ∧
      matched host memory i = true ∧ qtVersionOk host (systemHeap host memory i) = true :=
  mem_groupPolicys.trans (and_congr_right fun _ => groupAccepts_iff)

theorem mem_kept_twin (h : Twin host host') (memory : PolicyPtr → Uninitialised) (resident : Bool) (group : String)
    (i : PolicyPtr) : i ∈ kept host' memory resident group ↔
    i ∈ systemFiles host ∧ (systemHeap host memory i).group = group ∧
      resident = (systemHeap host memory i).isResident ∧ matched host' memory i = true ∧
      qtVersionOk host (systemHeap host memory i) = true := by
  rw [mem_kept, twin_files h, (twin_settings h memory i).group, twin_isResident h, twin_qtVersionOk h]

theorem SameCreated.symm {l l' : Option Loaded} (h : SameCreated l l') : SameCreated l' l := by
  intro a b ha hb i
  exact (h b a hb ha i).symm

theorem kept_differ (h : Twin host host') (hne : kept host' memory resident group ≠ kept host memory resident group) :
    ∃ i ∈ systemFiles host, matched host memory i ≠ matched host' memory i ∧
      qtVersionOk host (systemHeap host memory i) = true ∧
      (systemHeap host memory i).group = group ∧ resident = (systemHeap host memory i).isResident := by
  by_contra hnone
  apply hne
  rw [kept_twin h]
  apply List.filter_congr
  intro i hi
  change _ = groupAccepts host (loader resident) group (systemHeap host memory i)
  rw [groupAccepts]
  by_cases hgroup : (systemHeap host memory i).group = group
  · by_cases hresident : resident = (systemHeap host memory i).isResident
    · cases hqt : qtVersionOk host (systemHeap host memory i) with
      | false => simp
      | true =>
        have hV : matched host memory i = matched host' memory i := by
          by_contra hV
          exact hnone ⟨i, hi, hV, hqt, hgroup, hresident⟩
        rw [← hV]
        rfl
    · simp [loader, hresident]
  · simp [hgroup]

theorem loadByGroup_same_iff (h : Twin host host') (memory : PolicyPtr → Uninitialised) :
    (∀ resident timerFires group, SameCreated ((loader resident).loadByGroup host memory timerFires group)
      ((loader resident).loadByGroup host' memory timerFires group)) ↔
    ∀ i ∈ systemFiles host, matched host memory i ≠ matched host' memory i →
      qtVersionOk host (systemHeap host memory i) = true →
        NeitherStarts host host' memory (systemHeap host memory i).isResident (systemHeap host memory i).group := by
  constructor
  · intro hsame i hi hne hqt
    have hcreated := hsame (systemHeap host memory i).isResident (fun _ => true) (systemHeap host memory i).group
    have hkept := mem_kept host memory (systemHeap host memory i).isResident (systemHeap host memory i).group i
    have hkept' := mem_kept_twin h memory (systemHeap host memory i).isResident (systemHeap host memory i).group i
    cases hV : matched host memory i with
    | true =>
      have hV' : matched host' memory i = false := by simpa [hV] using hne.symm
      apply neitherStarts_of_lost hcreated
      · exact hkept.mpr ⟨hi, rfl, rfl, hV, hqt⟩
      · simp [hkept', hV']
    | false =>
      have hV' : matched host' memory i = true := by simpa [hV] using hne.symm
      apply NeitherStarts.symm
      apply neitherStarts_of_lost hcreated.symm
      · exact hkept'.mpr ⟨hi, rfl, rfl, hV', hqt⟩
      · simp [hkept, hV]
  · intro hdiffer resident timerFires group
    by_cases hkept : kept host' memory resident group = kept host memory resident group
    · exact loadByGroup_twin h hkept timerFires
    · obtain ⟨i, hi, hne, hqt, rfl, rfl⟩ := kept_differ h hkept
      exact (hdiffer i hi hne hqt).sameCreated timerFires

theorem sessionType_ignored_iff (host host' : Host) (h : Twin host host') :
    (∀ memory, SameScans host host' memory) ↔ ∀ memory, ∀ i ∈ systemFiles host,
      matched host memory i ≠ matched host' memory i → Hidden host host' memory i := by
  apply forall_congr'
  intro memory
  constructor
  · rintro ⟨hinit, hget, hname, hgroup⟩ i hi hne
    exact ⟨(initGroup_same_iff h memory).mp hinit i hi hne, (getGroup_same_iff h memory).mp hget i hi hne,
      (loadByName_same_iff h memory).mp hname i hi hne, (loadByGroup_same_iff h memory).mp hgroup i hi hne⟩
  · intro hhidden
    exact ⟨(initGroup_same_iff h memory).mpr fun i hi hne => (hhidden i hi hne).initGroup,
      (getGroup_same_iff h memory).mpr fun i hi hne => (hhidden i hi hne).getGroup,
      (loadByName_same_iff h memory).mpr fun i hi hne => (hhidden i hi hne).loadByName,
      (loadByGroup_same_iff h memory).mpr fun i hi hne => (hhidden i hi hne).loadByGroup⟩

def systemHost (session : String) (files : List QFileInfo) : Host where
  env := ⟨session, "", "", asciiLower⟩
  configDir := fun _ => files
  pluginQtVersion := fun _ => true

def waylandFile : QFileInfo := configFile [("name", .string "demo"), ("group", .string "dde"),
  ("condition", .object [("sessionType", .string "wayland")])]

/-- A file that comes before it hides the verdict on `waylandFile` from every scan. -/
def hidingFile : QFileInfo := configFile [("name", .string "demo"), ("group", .string "dde"),
  ("dependencies", .array [.string "demo"])]

def hidingDir : List QFileInfo := [hidingFile, waylandFile]

def hidingHost (session : String) : Host := systemHost session hidingDir

theorem hidingDir_files : configFiles hidingDir = [0, 1] := by decide

theorem hidingFile_accepted (session : String) (memory : PolicyPtr → Uninitialised) :
    groupAccepts (hidingHost session) (loader true) "dde" (systemHeap (hidingHost session) memory 0) = true ∧
      nameAccepts (hidingHost session) "demo" (systemHeap (hidingHost session) memory 0) = true := ⟨rfl, rfl⟩

theorem hiding_cyclic (session : String) (memory : PolicyPtr → Uninitialised) :
    StartsNone (hidingHost session) memory true "dde" := by
  obtain ⟨rest, hkept⟩ : ∃ rest, groupPolicys (hidingHost session) (loader true) memory "dde" = 0 :: rest := by
    let accepts (i : PolicyPtr) := groupAccepts (hidingHost session) (loader true) "dde"
      (systemHeap (hidingHost session) memory i)
    have hfilter : groupPolicys (hidingHost session) (loader true) memory "dde" = [0, 1].filter accepts :=
      congrArg (List.filter accepts) hidingDir_files
    exact ⟨_, hfilter.trans (List.filter_cons_of_pos (hidingFile_accepted session memory).1)⟩
  right
  intro hac
  refine hac 0 (.single (mem_dependencyEdges.mpr ?_))
  rw [hkept]
  exact ⟨List.mem_cons_self, "demo", List.mem_singleton.mpr rfl, rfl⟩

theorem hidingHost_matched (session : String) (memory : PolicyPtr → Uninitialised) (i : PolicyPtr) :
    matched (hidingHost session) memory i = matched (hidingHost session) (fun _ => ⟨.QT, 0, 0⟩) i :=
  Policy.matchesEnvironment_congr _ (parsedPolicys_agree _ _ _ i).condition

theorem sessionType_ignored_iff_pair : Twin (hidingHost "") (hidingHost "x11") ∧
    (∀ memory, matched (hidingHost "") memory 1 = true ∧ matched (hidingHost "x11") memory 1 = false) ∧
    ∀ memory, SameScans (hidingHost "") (hidingHost "x11") memory := by
  have htwin : Twin (hidingHost "") (hidingHost "x11") := ⟨rfl, rfl, .inl rfl⟩
  have hverdicts : ∀ memory, matched (hidingHost "") memory 1 = true ∧ matched (hidingHost "x11") memory 1 = false := by
    intro memory
    rw [hidingHost_matched "", hidingHost_matched "x11"]
    decide
  refine ⟨htwin, hverdicts, (sessionType_ignored_iff _ _ htwin).mpr fun memory i hi hne => ?_⟩
  have hfiles : systemFiles (hidingHost "") = [0, 1] := hidingDir_files
  rw [hfiles, List.mem_cons, List.mem_singleton] at hi
  rcases hi with rfl | rfl
  · exact absurd rfl hne
  · constructor
    · exact fun _ => ⟨0, by simp [hfiles], rfl, fun _ => rfl, fun _ => rfl⟩
    · exact fun hfirst => absurd rfl (hfirst.2.2 0 (hfiles ▸ List.mem_cons_self : 0 ∈ systemFiles _) (by decide))
    · exact fun _ => ⟨0, by simp [hfiles], by decide, (hidingFile_accepted "" memory).2, rfl⟩
    · exact fun _ => .inl ⟨hiding_cyclic "" memory, hiding_cyclic "x11" memory⟩

/-- The system daemon started from an X11 session drops the group of a plugin that asks for Wayland. -/
theorem sessionType_honoured : Twin (systemHost "" [waylandFile]) (systemHost "x11" [waylandFile]) ∧
    ¬ SameScans (systemHost "" [waylandFile]) (systemHost "x11" [waylandFile]) (fun _ => ⟨.QT, 0, 0⟩) := by
  refine ⟨⟨rfl, rfl, .inl rfl⟩, fun hsame => ?_⟩
  have hgroup := (hsame.initGroup "dde").mp (by decide)
  exact absurd hgroup (by decide)

end DeepinServiceManager.SessionTypes
