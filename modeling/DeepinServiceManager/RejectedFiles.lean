import DeepinServiceManager.FileUse

namespace DeepinServiceManager.RejectedFiles

open PluginLoader ServiceManager ConfigScans FileUse

variable {i : PolicyPtr} {file : QFileInfo}

theorem parsedPolicys_rejected (env : Environment) {dir : List QFileInfo} (hfile : dir[i]? = some file)
    (hrejected : file.rejected = true) (memory : PolicyPtr → Uninitialised) :
    (parsedPolicys dir memory i).matchesEnvironment env = true := by
  rw [parsedPolicys_eq hfile]
  exact Policy.matchesEnvironment_rejected env (memory i) hrejected

theorem declaredCondition_eq {rootObj conditionObj : QJsonObject} {s : String}
    (hcondition : rootObj.value "condition" = some (.object conditionObj))
    (hsession : conditionObj.value "sessionType" = some (.string s)) :
    Policy.declaredCondition rootObj = ⟨s⟩ := by
  simp only [Policy.declaredCondition, hcondition, jsonGetString, hsession]

theorem parsedPolicys_mismatch {env : Environment} {dir : List QFileInfo} (hfile : dir[i]? = some file)
    {rootObj conditionObj : QJsonObject} {s : String} (hroot : file.rootObj = some rootObj)
    (hread : wellFormedRoot rootObj = true) (hcondition : rootObj.value "condition" = some (.object conditionObj))
    (hsession : conditionObj.value "sessionType" = some (.string s)) (hs : s ≠ "")
    (hactual : currentSessionType env ≠ "") (hother : currentSessionType env ≠ env.toLower s)
    (memory : PolicyPtr → Uninitialised) : (parsedPolicys dir memory i).matchesEnvironment env = false := by
  have hspec : (parsedPolicys dir memory i).condition = ⟨s⟩ := by
    rw [parsedPolicys_eq hfile, (Policy.parseConfig_new _ file).2, QFileInfo.rejected, hroot]
    simp only [hread, Bool.not_true, Bool.false_eq_true, if_false, Option.map_some, Option.getD_some]
    exact declaredCondition_eq hcondition hsession
  rw [Policy.matchesEnvironment, hspec]
  simp [ConditionSpec.isEmpty, hs, hactual, hother]

def waylandFile (policyList : List QJsonValue) : QFileInfo := configFile
  [("name", .string "demo"), ("pluginPath", .string "demo.so"), ("policy", .array policyList),
    ("condition", .object [("sessionType", .string "Wayland")])]

theorem conditionUnmet_unused_iff (host : Host) (loader : PluginLoader) (i : PolicyPtr) (file : QFileInfo)
    (hfile : (host.configDir loader.m_type)[i]? = some file) (hconfig : file.isConfig = true)
    (rootObj conditionObj : QJsonObject) (s : String) (hroot : file.rootObj = some rootObj)
    (hcondition : rootObj.value "condition" = some (.object conditionObj))
    (hsession : conditionObj.value "sessionType" = some (.string s)) (hs : s ≠ "")
    (hactual : currentSessionType host.env ≠ "") (hother : currentSessionType host.env ≠ host.env.toLower s) :
    NeverUsed host loader i ↔ wellFormedRoot rootObj = true ∨ Shadowed host loader i := by
  by_cases hread : wellFormedRoot rootObj = true
  · have hunused : NeverUsed host loader i := neverUsed_of_mismatch
      (parsedPolicys_mismatch hfile hroot hread hcondition hsession hs hactual hother)
    exact ⟨fun _ => .inl hread, fun _ => hunused⟩
  · have hrejected : file.rejected = true := by simp [QFileInfo.rejected, hroot, hread]
    rw [neverUsed_iff_shadowed (mem_configFiles.mpr ⟨file, hfile, hconfig⟩)
      (parsedPolicys_rejected host.env hfile hrejected)]
    simp [hread]

theorem conditionUnmet_unused : NeverUsed (sampleHost "x11" [waylandFile []]) ⟨.SessionBus, true⟩ 0 :=
  (conditionUnmet_unused_iff (sampleHost "x11" [waylandFile []]) ⟨.SessionBus, true⟩ 0 (waylandFile []) rfl rfl _
    [("sessionType", .string "Wayland")] "Wayland" rfl rfl rfl (by decide) (by decide) (by decide)).mpr (.inl rfl)

theorem conditionUnmet_used :
    let host := sampleHost "x11" [waylandFile [.object []]]
    let loader : PluginLoader := ⟨.SessionBus, true⟩
    let memory : PolicyPtr → Uninitialised := fun _ => ⟨.QT, 0, 0⟩
    currentSessionType host.env = "x11" ∧ host.env.toLower "Wayland" = "wayland" ∧
      loader.loadByGroup host memory (fun _ => true) "app" = some ⟨[0], [0]⟩ ∧
      loader.loadByName host memory "demo" = ⟨[0], [0]⟩ ∧ loader.getGroup host memory "demo" = "app" ∧
      collectGroups host (parsedPolicys (host.configDir .SessionBus) memory) [0] = ["app"] ∧
      ¬ NeverUsed host loader 0 := by
  intro host loader memory
  have hload : loader.loadByGroup host memory (fun _ => true) "app" = some ⟨[0], [0]⟩ := by decide
  exact ⟨by decide, by decide, hload, by decide, by decide, by decide, created_used hload (by simp)⟩

theorem rejected_unused_iff (host : Host) (loader : PluginLoader) (i : PolicyPtr) (file : QFileInfo)
    (hfile : (host.configDir loader.m_type)[i]? = some file) (hconfig : file.isConfig = true)
    (hrejected : file.rejected = true) : NeverUsed host loader i ↔ Shadowed host loader i :=
  neverUsed_iff_shadowed (mem_configFiles.mpr ⟨file, hfile, hconfig⟩)
    (parsedPolicys_rejected host.env hfile hrejected)

def namelessFile : QFileInfo := configFile [("name", .double 1), ("startType", .string "OnDemand")]

def namelessTwin : QFileInfo := configFile [("group", .string "app"), ("pluginPath", .string "demo.so")]

theorem rejected_unused : NeverUsed (sampleHost "x11" [namelessTwin, namelessFile]) ⟨.SessionBus, true⟩ 1 := by
  refine (rejected_unused_iff (sampleHost "x11" [namelessTwin, namelessFile]) ⟨.SessionBus, true⟩ 1 namelessFile rfl rfl
    rfl).mpr ⟨?_, ?_, ?_, ?_⟩
  · intro memory policy hresident
    cases hresident
  · exact fun memory _ => ⟨0, by decide, by decide, rfl⟩
  · exact fun memory => ⟨0, by decide, by decide, rfl⟩
  · exact fun memory => .inr ⟨0, by decide, by decide, rfl, rfl⟩

theorem rejected_used :
    let host := sampleHost "x11" [namelessTwin]
    let loader : PluginLoader := ⟨.SessionBus, true⟩
    let memory : PolicyPtr → Uninitialised := fun _ => ⟨.QT, 0, 0⟩
    namelessTwin.rejected = true ∧ loader.loadByGroup host memory (fun _ => true) "app" = some ⟨[0], [0]⟩ ∧
      loader.loadByName host memory "" = ⟨[0], [0]⟩ ∧ loader.getGroup host memory "" = "app" ∧
      collectGroups host (parsedPolicys (host.configDir .SessionBus) memory) [0] = ["app"] ∧
      ¬ NeverUsed host loader 0 := by
  intro host loader memory
  have hload : loader.loadByGroup host memory (fun _ => true) "app" = some ⟨[0], [0]⟩ := by decide
  exact ⟨by decide, hload, by decide, by decide, by decide, created_used hload (by simp)⟩

end DeepinServiceManager.RejectedFiles
