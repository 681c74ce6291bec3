import DeepinServiceManager.ConfigScans

namespace DeepinServiceManager.CyclicGroups

open AcyclicRelations ConfigScans OrderedScans PluginLoader Relation SortPolicy

structure DependsOn (heap : PolicyPtr → Policy) (policys : List PolicyPtr) (d p : PolicyPtr) : Prop where
  dependency : d ∈ policys
  dependent : p ∈ policys
  listed : (heap d).name ∈ (heap p).dependencies

def OnCycle (heap : PolicyPtr → Policy) (policys : List PolicyPtr) (p : PolicyPtr) : Prop :=
  TransGen (DependsOn heap policys) p p

def DistinctNames (heap : PolicyPtr → Policy) (policys : List PolicyPtr) : Prop :=
  (policys.map (fun p => (heap p).name)).Nodup

instance (heap : PolicyPtr → Policy) (policys : List PolicyPtr) : Decidable (DistinctNames heap policys) :=
  inferInstanceAs (Decidable (List.Nodup _))

variable {heap : PolicyPtr → Policy} {policys : List PolicyPtr}

theorem depends_iff (hnames : DistinctNames heap policys) {d p : PolicyPtr} :
    Depends heap policys d p ↔ DependsOn heap policys d p := by
  rw [Depends, mem_dependencyEdges]
  simp only [containsDependency, find?_key_eq_some_iff hnames]
  constructor
  · rintro ⟨hp, name, hname, hd, rfl⟩
    exact ⟨hd, hp, hname⟩
  · rintro ⟨hd, hp, hname⟩
    exact ⟨hp, _, hname, hd, rfl⟩

theorem acyclic_iff (hnames : DistinctNames heap policys) :
    Acyclic (Depends heap policys) ↔ ∀ p ∈ policys, ¬ OnCycle heap policys p := by
  have heq : Depends heap policys = DependsOn heap policys := by
    funext d p
    exact propext (depends_iff hnames)
  rw [heq]
  constructor
  · exact fun hac p _ => hac p
  · intro hnone p hcycle
    obtain ⟨q, -, hq⟩ := TransGen.tail'_iff.mp hcycle
    exact hnone p hq.dependent hcycle

/-- `loadByGroup` starts just these policies of a group that is `policys`. -/
def Started (heap : PolicyPtr → Policy) (policys order : List PolicyPtr) : Prop :=
  ∀ (host : Host) (loader : PluginLoader) (memory : PolicyPtr → Uninitialised) (timerFires : ℤ → Bool)
    (group : String), parsedPolicys (host.configDir loader.m_type) memory = heap →
    groupPolicys host loader memory group = policys →
    (∀ p ∈ policys, timerFires (startDelayMsec (heap p)) = true) →
    (loader.loadByGroup host memory timerFires group).map Loaded.created = some order

theorem started_of_sorted {order : List PolicyPtr} (hsub : order ⊆ policys)
    (hsort : sortPolicy heap policys = some order) : Started heap policys order := by
  rintro host loader memory timerFires group rfl rfl hfires
  rw [loadByGroup, hsort]
  exact congrArg some (List.takeWhile_eq_self_iff.mpr (fun p hp => hfires p (hsub hp)))

theorem group_sorted_or_dropped (heap : PolicyPtr → Policy) (policys : List PolicyPtr)
    (hnames : DistinctNames heap policys) (hfit : EdgesFit heap policys) :
    ((∀ p ∈ policys, ¬ OnCycle heap policys p) → ∃ order, sortPolicy heap policys = some order ∧
        order.Perm policys ∧ (∀ d p, DependsOn heap policys d p → order.idxOf d < order.idxOf p) ∧
        Started heap policys order) ∧
      ((∃ p ∈ policys, OnCycle heap policys p) →
        sortPolicy heap policys = some [] ∧ Started heap policys []) := by
  have hdistinct : policys.Nodup := hnames.of_map
  constructor
  · intro hnone
    obtain ⟨order, hsort, hperm, horder⟩ := sortPolicy_acyclic hdistinct hfit ((acyclic_iff hnames).mpr hnone)
    refine ⟨order, hsort, hperm, ?_, started_of_sorted hperm.subset hsort⟩
    intro d p hdepends
    exact horder (d, p) ((depends_iff hnames).mpr hdepends)
  · rintro ⟨p, hp, hcycle⟩
    have hcyc : ¬ Acyclic (Depends heap policys) := fun hac => (acyclic_iff hnames).mp hac p hp hcycle
    have hsort := sortPolicy_cyclic hdistinct hfit hcyc
    exact ⟨hsort, started_of_sorted (List.nil_subset _) hsort⟩

def groupFile (name : String) (dependencies : List String) : QFileInfo := configFile
  [("name", .string name), ("group", .string "dde"), ("dependencies", .array (dependencies.map .string))]

def selfDependentDir : List QFileInfo := [groupFile "a" ["a"], groupFile "b" []]

def selfDependentHeap : PolicyPtr → Policy := parsedPolicys selfDependentDir (fun _ => ⟨.QT, 0, 0⟩)

theorem group_sorted_or_dropped_pair : DistinctNames dependentHeap [0, 1] ∧ EdgesFit dependentHeap [0, 1] ∧
    ∃ order, sortPolicy dependentHeap [0, 1] = some order ∧ order.Perm [0, 1] ∧ order.idxOf 1 < order.idxOf 0 := by
  have hnames : DistinctNames dependentHeap [0, 1] := by decide
  have hfit : EdgesFit dependentHeap [0, 1] := by decide
  obtain ⟨order, hsort, hperm, horder, -⟩ := (group_sorted_or_dropped dependentHeap [0, 1] hnames hfit).1
    ((acyclic_iff hnames).mp dependentHeap_acyclic)
  exact ⟨hnames, hfit, order, hsort, hperm, horder 1 0 ⟨by decide, by decide, by decide⟩⟩

theorem unrelated_dropped : DistinctNames selfDependentHeap [0, 1] ∧
    (∀ d, ¬ DependsOn selfDependentHeap [0, 1] d 1) ∧ sortPolicy selfDependentHeap [0, 1] = some [] ∧
    ∃ loaded, PluginLoader.loadByGroup (sampleHost "x11" selfDependentDir) ⟨.SessionBus, true⟩
      (fun _ => ⟨.QT, 0, 0⟩) (fun delay => 0 ≤ delay) "dde" = some loaded ∧ 1 ∉ loaded.created := by
  refine ⟨by decide, ?_, by decide, ⟨[], []⟩, by decide, by decide⟩
  rintro d ⟨-, -, hlisted⟩
  have hnone : (selfDependentHeap 1).dependencies = [] := by decide
  rw [hnone] at hlisted
  cases hlisted

end DeepinServiceManager.CyclicGroups
