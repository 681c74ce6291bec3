import DeepinServiceManager.Policy

namespace DeepinServiceManager

def QFileInfo.rootObj (file : QFileInfo) : Option QJsonObject :=
  if file.absoluteFilePath.isEmpty then none else (readJsonFile file).map QJsonDocument.toObject

def policyEntryOk : QJsonValue → Bool
  | .object obj => !(jsonGetString obj "path" "").2.isEmpty
  | _ => true

def policyMemberOk (rootObj : QJsonObject) : Bool :=
  match rootObj.value "policy" with
  | none => true
  | some (.array policyList) => policyList.all policyEntryOk
  | some _ => false

def wellFormedRoot (rootObj : QJsonObject) : Bool :=
  !(jsonGetString rootObj "name" "").2.isEmpty && policyMemberOk rootObj

def QFileInfo.rejected (file : QFileInfo) : Bool :=
  match file.rootObj with
  | none => true
  | some rootObj => !wellFormedRoot rootObj

namespace Policy

def settings (u : Uninitialised) (file : QFileInfo) : Policy :=
  match file.rootObj with
  | none => new u
  | some rootObj => (new u).readScalars rootObj

structure SameSettings (p q : Policy) : Prop where
  name : p.name = q.name
  group : p.group = q.group
  pluginPath : p.pluginPath = q.pluginPath
  version : p.version = q.version
  startType : p.startType = q.startType
  dependencies : p.dependencies = q.dependencies
  sdkType : p.sdkType = q.sdkType
  startDelay : p.startDelay = q.startDelay
  idleTime : p.idleTime = q.idleTime

theorem parsePolicyPath_frame (p : Policy) (obj : QJsonObject) :
    (p.parsePolicyPath obj).1 = policyEntryOk (.object obj) ∧
      ∃ hide sub path, (p.parsePolicyPath obj).2 =
        { p with mapPathHide := hide, mapSubPath := sub, mapPath := path } := by
  unfold parsePolicyPath policyEntryOk
  by_cases h : (jsonGetString obj "path" "").2.isEmpty
  · simp only [h, if_true, Bool.not_true]
    exact ⟨trivial, p.mapPathHide, p.mapSubPath, p.mapPath, rfl⟩
  · simp only [h, Bool.false_eq_true, if_false, Bool.not_false]
    exact ⟨trivial, _, _, _, rfl⟩

theorem parsePolicyList_frame (entries : List QJsonValue) (p : Policy) :
    (p.parsePolicyList entries).1 = entries.all policyEntryOk ∧
      ∃ hide sub path, (p.parsePolicyList entries).2 =
        { p with mapPathHide := hide, mapSubPath := sub, mapPath := path } := by
  induction entries generalizing p with
  | nil => exact ⟨rfl, p.mapPathHide, p.mapSubPath, p.mapPath, rfl⟩
  | cons entry rest ih =>
    cases entry with
    | object obj =>
      obtain ⟨hok, hide, sub, path, heq⟩ := parsePolicyPath_frame p obj
      rw [parsePolicyList, List.all_cons, hok]
      cases policyEntryOk (.object obj) with
      | false => exact ⟨rfl, hide, sub, path, heq⟩
      | true =>
        obtain ⟨hrest, hide', sub', path', heq'⟩ := ih (p.parsePolicyPath obj).2
        refine ⟨by simpa using hrest, hide', sub', path', ?_⟩
        rw [if_pos rfl, heq', heq]
    | _ => exact ih p

theorem parsePolicy_frame (p : Policy) (rootObj : QJsonObject) :
    (p.parsePolicy rootObj).1 = policyMemberOk rootObj ∧
      ∃ hide sub path, (p.parsePolicy rootObj).2 =
        { p with mapPathHide := hide, mapSubPath := sub, mapPath := path } := by
  unfold parsePolicy policyMemberOk
  cases rootObj.value "policy" with
  | none => exact ⟨rfl, _, _, _, rfl⟩
  | some v =>
    cases v with
    | array policyList =>
      obtain ⟨hok, hide, sub, path, heq⟩ :=
        parsePolicyList_frame policyList { p with mapPathHide := .empty, mapPath := .empty }
      exact ⟨hok, hide, sub, path, heq⟩
    | _ => exact ⟨rfl, _, _, _, rfl⟩

def declaredCondition (rootObj : QJsonObject) : ConditionSpec :=
  match rootObj.value "condition" with
  | some (.object conditionObj) => ⟨(jsonGetString conditionObj "sessionType" "").2⟩
  | _ => {}

theorem parseCondition_eq (p : Policy) (rootObj : QJsonObject) :
    p.parseCondition rootObj = { p with condition := declaredCondition rootObj } := by
  unfold parseCondition declaredCondition
  cases rootObj.value "condition" with
  | none => rfl
  | some v => cases v <;> rfl

/-- What `parseConfig` does once the document is read. -/
def parseRoot (p : Policy) (rootObj : QJsonObject) : Policy :=
  let p := p.readScalars rootObj
  if p.name.isEmpty then p
  else if (p.parsePolicy rootObj).1 then (p.parsePolicy rootObj).2.parseCondition rootObj
  else (p.parsePolicy rootObj).2

theorem parseConfig_none (p : Policy) {file : QFileInfo} (hread : file.rootObj = none) : p.parseConfig file = p := by
  unfold QFileInfo.rootObj at hread
  unfold parseConfig
  split_ifs at hread ⊢
  · rfl
  · rw [Option.map_eq_none_iff.mp hread]

theorem parseConfig_some (p : Policy) {file : QFileInfo} {rootObj : QJsonObject} (hread : file.rootObj = some rootObj) :
    p.parseConfig file = p.parseRoot rootObj := by
  unfold QFileInfo.rootObj at hread
  split_ifs at hread with hpath
  obtain ⟨jsonDoc, hjson, rfl⟩ := Option.map_eq_some_iff.mp hread
  rw [parseConfig, if_neg hpath, hjson]
  rfl

theorem parseRoot_wellFormed (p : Policy) {rootObj : QJsonObject} (hroot : wellFormedRoot rootObj = true) :
    p.parseRoot rootObj = ((p.readScalars rootObj).parsePolicy rootObj).2.parseCondition rootObj := by
  rw [wellFormedRoot, Bool.and_eq_true] at hroot
  have hname : ¬ (p.readScalars rootObj).name.isEmpty = true := by simpa [readScalars] using hroot.1
  have hok := (parsePolicy_frame (p.readScalars rootObj) rootObj).1
  rw [parseRoot, if_neg hname, if_pos (hok.trans hroot.2)]

theorem parseRoot_frame (p : Policy) (rootObj : QJsonObject) : ∃ hide sub path, p.parseRoot rootObj =
    { p.readScalars rootObj with
      mapPathHide := hide
      mapSubPath := sub
      mapPath := path
      condition := if wellFormedRoot rootObj then declaredCondition rootObj else p.condition } := by
  obtain ⟨hok, hide, sub, path, heq⟩ := parsePolicy_frame (p.readScalars rootObj) rootObj
  have hname : (p.readScalars rootObj).name = (jsonGetString rootObj "name" "").2 := rfl
  rw [parseRoot, hok, parseCondition_eq, heq, hname, wellFormedRoot]
  cases (jsonGetString rootObj "name" "").2.isEmpty with
  | true => exact ⟨p.mapPathHide, p.mapSubPath, p.mapPath, rfl⟩
  | false => cases policyMemberOk rootObj <;> exact ⟨hide, sub, path, rfl⟩

theorem parseConfig_readScalars (p : Policy) {file : QFileInfo} {rootObj : QJsonObject}
    (hread : file.rootObj = some rootObj) : (p.parseConfig file).SameSettings (p.readScalars rootObj) := by
  obtain ⟨hide, sub, path, heq⟩ := parseRoot_frame p rootObj
  rw [parseConfig_some p hread, heq]
  constructor <;> rfl

/-- What parsing a file into a new `Policy` does: the settings always arrive, the condition only when no
error exit is taken. -/
theorem parseConfig_new (u : Uninitialised) (file : QFileInfo) :
    ((new u).parseConfig file).SameSettings (settings u file) ∧
      ((new u).parseConfig file).condition =
        if file.rejected then {} else (file.rootObj.map declaredCondition).getD {} := by
  unfold settings QFileInfo.rejected
  cases hread : file.rootObj with
  | none =>
    rw [parseConfig_none (new u) hread]
    exact ⟨by constructor <;> rfl, rfl⟩
  | some rootObj =>
    refine ⟨parseConfig_readScalars (new u) hread, ?_⟩
    obtain ⟨hide, sub, path, heq⟩ := parseRoot_frame (new u) rootObj
    rw [parseConfig_some (new u) hread, heq]
    simp only [Option.map_some, Option.getD_some]
    cases wellFormedRoot rootObj <;> rfl

theorem settings_eq (u v : Uninitialised) (file : QFileInfo) :
    settings u file = { settings v file with
      sdkType := (settings u file).sdkType
      startDelay := (settings u file).startDelay
      idleTime := (settings u file).idleTime } := by
  unfold settings
  cases file.rootObj <;> rfl

theorem isResident_eq {p q : Policy} (h : p.startType = q.startType) : p.isResident = q.isResident := by
  rw [isResident, isResident, h]

theorem matchesEnvironment_congr (env : Environment) {p q : Policy} (h : p.condition = q.condition) :
    p.matchesEnvironment env = q.matchesEnvironment env := by
  rw [matchesEnvironment, matchesEnvironment, h]

theorem matchesEnvironment_rejected (env : Environment) (u : Uninitialised) {file : QFileInfo}
    (h : file.rejected = true) : ((new u).parseConfig file).matchesEnvironment env = true := by
  have hcondition := (parseConfig_new u file).2
  rw [h, if_pos rfl] at hcondition
  rw [matchesEnvironment, hcondition]
  rfl

end Policy

end DeepinServiceManager
