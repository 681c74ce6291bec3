import Mathlib.Data.List.Forall2
import DeepinServiceManager.ConfigScans

namespace DeepinServiceManager.TwinDirectories

def SameMember (m m' : String × QJsonValue) : Prop :=
  m = m' ∨ m.1 = "sessionType" ∧ m'.1 = "sessionType" ∧ ∃ s s', m.2 = .string s ∧ m'.2 = .string s'

def SameRootMember (m m' : String × QJsonValue) : Prop :=
  m = m' ∨ m.1 = "condition" ∧ m'.1 = "condition" ∧
    ∃ c c', m.2 = .object c ∧ m'.2 = .object c' ∧ List.Forall₂ SameMember c c'

/-- The two files differ at most in the string `condition.sessionType`. -/
structure SameFile (file file' : QFileInfo) : Prop where
  absoluteFilePath : file'.absoluteFilePath = file.absoluteFilePath
  isFile : file'.isFile = file.isFile
  jsonSuffix : file'.jsonSuffix = file.jsonSuffix
  content : file'.content = file.content ∨ ∃ o o', file.content = .document (.object o) ∧
    file'.content = .document (.object o') ∧ List.Forall₂ SameRootMember o o'

/-- Two hosts that differ in the session variables, or in the session types that the files of the system bus
ask for. -/
structure Twin (host host' : Host) : Prop where
  pluginQtVersion : host'.pluginQtVersion = host.pluginQtVersion
  toLower : host'.env.toLower = host.env.toLower
  runs : host'.configDir .SystemBus = host.configDir .SystemBus ∨
    host'.env = host.env ∧ List.Forall₂ SameFile (host.configDir .SystemBus) (host'.configDir .SystemBus)

theorem SameFile.refl (file : QFileInfo) : SameFile file file := ⟨rfl, rfl, rfl, .inl rfl⟩

theorem Twin.files {host host' : Host} (h : Twin host host') :
    List.Forall₂ SameFile (host.configDir .SystemBus) (host'.configDir .SystemBus) := by
  rcases h.runs with hdir | ⟨-, hdir⟩
  · rw [hdir]
    exact List.forall₂_same.mpr (fun file _ => SameFile.refl file)
  · exact hdir

theorem value_same {o o' : QJsonObject} (h : List.Forall₂ SameRootMember o o') {key : String}
    (hkey : key ≠ "condition") : o'.value key = o.value key := by
  unfold QJsonObject.value
  induction h with
  | nil => rfl
  | @cons m m' o o' hm _ ih =>
    rcases hm with rfl | ⟨hm, hm', -⟩
    · simp only [List.find?_cons]
      cases decide (m.1 = key) with
      | true => rfl
      | false => exact ih
    · have hfalse : decide (m.1 = key) = false := by simpa [hm] using hkey.symm
      have hfalse' : decide (m'.1 = key) = false := by simpa [hm'] using hkey.symm
      simp only [List.find?_cons, hfalse, hfalse']
      exact ih

section SameObjects

variable {o o' : QJsonObject} (hvalue : ∀ key, key ≠ "condition" → o'.value key = o.value key)

include hvalue

theorem getString_same {key : String} (hkey : key ≠ "condition") (defaultValue : String) :
    jsonGetString o' key defaultValue = jsonGetString o key defaultValue := by
  rw [jsonGetString, jsonGetString, hvalue key hkey]

theorem readScalars_same (p : Policy) : p.readScalars o' = p.readScalars o := by
  have hlist : jsonGetStringList o' "dependencies" [] = jsonGetStringList o "dependencies" [] := by
    rw [jsonGetStringList, jsonGetStringList, hvalue _ (by decide)]
  have hint {key : String} (hkey : key ≠ "condition") (d : ℤ) : jsonGetInt o' key d = jsonGetInt o key d := by
    rw [jsonGetInt, jsonGetInt, hvalue key hkey]
  unfold Policy.readScalars
  rw [hlist, hint (by decide), hint (by decide)]
  simp (disch := decide) only [getString_same hvalue]

theorem parsePolicy_same (p : Policy) : p.parsePolicy o' = p.parsePolicy o := by
  unfold Policy.parsePolicy
  rw [hvalue _ (by decide)]

end SameObjects

theorem rootObj_document {file : QFileInfo} {o : QJsonObject} (hcontent : file.content = .document (.object o)) :
    file.rootObj = if file.absoluteFilePath.isEmpty then none else some o := by
  rw [QFileInfo.rootObj, readJsonFile, hcontent]
  rfl

theorem parseConfig_same (p : Policy) {file file' : QFileInfo} (h : SameFile file file') :
    ∃ c, p.parseConfig file' = { p.parseConfig file with condition := c } := by
  rcases h.content with hcontent | ⟨o, o', ho, ho', hmembers⟩
  · refine ⟨(p.parseConfig file).condition, ?_⟩
    rw [Policy.parseConfig, Policy.parseConfig, readJsonFile, readJsonFile, hcontent, h.absoluteFilePath]
  · have hread := rootObj_document ho
    have hread' := rootObj_document ho'
    rw [h.absoluteFilePath] at hread'
    split_ifs at hread hread'
    · rw [Policy.parseConfig_none p hread, Policy.parseConfig_none p hread']
      exact ⟨p.condition, rfl⟩
    · have hvalue : ∀ key, key ≠ "condition" → o'.value key = o.value key := fun _ => value_same hmembers
      rw [Policy.parseConfig_some p hread, Policy.parseConfig_some p hread', Policy.parseRoot, Policy.parseRoot,
        readScalars_same hvalue, parsePolicy_same hvalue]
      split_ifs
      · exact ⟨_, rfl⟩
      · rw [Policy.parseCondition_eq, Policy.parseCondition_eq]
        exact ⟨_, rfl⟩
      · exact ⟨_, rfl⟩

theorem getElem?_same {dir dir' : List QFileInfo} (h : List.Forall₂ SameFile dir dir') (i : ℕ) :
    Option.Rel SameFile dir[i]? dir'[i]? := by
  induction h generalizing i with
  | nil => exact .none
  | cons hfile _ ih =>
    cases i with
    | zero => exact .some hfile
    | succ i => exact ih i

theorem configFiles_same {dir dir' : List QFileInfo} (h : List.Forall₂ SameFile dir dir') :
    configFiles dir' = configFiles dir := by
  rw [configFiles, configFiles, h.length_eq]
  apply List.filter_congr
  intro i _
  have hfile := getElem?_same h i
  revert hfile
  generalize dir[i]? = a
  generalize dir'[i]? = b
  rintro (hfile | _)
  · simp [QFileInfo.isConfig, hfile.isFile, hfile.jsonSuffix]
  · rfl

theorem parsedPolicys_same {dir dir' : List QFileInfo} (h : List.Forall₂ SameFile dir dir')
    (memory : PolicyPtr → Uninitialised) (i : PolicyPtr) :
    ∃ c, parsedPolicys dir' memory i = { parsedPolicys dir memory i with condition := c } := by
  have hfile := getElem?_same h i
  unfold parsedPolicys
  revert hfile
  generalize dir[i]? = a
  generalize dir'[i]? = b
  rintro (hfile | _)
  · exact parseConfig_same _ hfile
  · exact ⟨{}, rfl⟩

end DeepinServiceManager.TwinDirectories
