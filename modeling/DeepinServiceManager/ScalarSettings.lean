import DeepinServiceManager.PolicyParsing

namespace DeepinServiceManager.ScalarSettings

def usableString (rootObj : QJsonObject) (key : String) : Option String :=
  match rootObj.value key with
  | some (.string s) => some s
  | _ => none

/-- The number is an integer in the 32-bit range. -/
def Int32 (x : ℚ) : Prop := x.isInt ∧ -2 ^ 31 ≤ x.num ∧ x.num < 2 ^ 31

instance (x : ℚ) : Decidable (Int32 x) := inferInstanceAs (Decidable (_ ∧ _ ∧ _))

def usableInt (rootObj : QJsonObject) (key : String) : Option ℤ :=
  match rootObj.value key with
  | some (.double x) => if Int32 x then some x.num else none
  | _ => none

/-- The first usable value of a list of sources, and the default when there is none. -/
def firstUsable {α : Type} (sources : List (Option α)) (default : α) : α := (sources.findSome? id).getD default

structure FromSources (p : Policy) (rootObj : QJsonObject) : Prop where
  pluginPath : p.pluginPath = firstUsable [usableString rootObj "pluginPath", usableString rootObj "libPath"] ""
  version : p.version = firstUsable [usableString rootObj "version", usableString rootObj "policyVersion"] "1.0"
  startType : p.startType =
    firstUsable [usableString rootObj "startType", usableString rootObj "policyStartType"] "Resident"
  group : p.group = firstUsable [usableString rootObj "group"] "app"
  startDelay : p.startDelay = firstUsable [usableInt rootObj "startDelay"] 0
  idleTime : p.idleTime = firstUsable [usableInt rootObj "idleTime"] 10

variable {rootObj : QJsonObject}

theorem jsonGetString_usable (key defaultValue : String) :
    (jsonGetString rootObj key defaultValue).2 = firstUsable [usableString rootObj key] defaultValue := by
  unfold jsonGetString usableString
  cases rootObj.value key with
  | none => rfl
  | some v => cases v <;> rfl

-- The second call has the result of the first one as its default.
theorem jsonGetString_legacy (key legacy defaultValue : String) :
    (jsonGetString rootObj key (jsonGetString rootObj legacy defaultValue).2).2 =
      firstUsable [usableString rootObj key, usableString rootObj legacy] defaultValue := by
  rw [jsonGetString_usable, jsonGetString_usable]
  cases usableString rootObj key <;> cases usableString rootObj legacy <;> rfl

theorem jsonGetInt_usable_iff (rootObj : QJsonObject) (key : String) (defaultValue : ℤ) :
    (jsonGetInt rootObj key defaultValue).2 = firstUsable [usableInt rootObj key] defaultValue ↔
      (defaultValue ≠ 0 → ∀ x, rootObj.value key = some (.double x) → Int32 x) := by
  unfold jsonGetInt usableInt
  cases rootObj.value key with
  | none => simp [firstUsable]
  | some v =>
    cases v with
    | double x =>
      by_cases hx : Int32 x
      · have hint : (QJsonValue.double x).toInt = x.num := if_pos hx
        simp [hint, hx, firstUsable]
      · have hint : (QJsonValue.double x).toInt = 0 := if_neg hx
        simp [hint, hx, firstUsable, eq_comm]
    | _ => simp [firstUsable]

theorem fromSources_iff (p : Policy) (file : QFileInfo) (rootObj : QJsonObject) (hread : file.rootObj = some rootObj) :
    FromSources (p.parseConfig file) rootObj ↔ ∀ x, rootObj.value "idleTime" = some (.double x) → Int32 x := by
  have hsettings := p.parseConfig_readScalars hread
  have hidle := jsonGetInt_usable_iff rootObj "idleTime" 10
  have hdelay := jsonGetInt_usable_iff rootObj "startDelay" 0
  constructor
  · intro h
    have hread := h.idleTime
    rw [hsettings.idleTime] at hread
    exact hidle.mp hread (by decide)
  · intro hint
    constructor
    · rw [hsettings.pluginPath]
      exact jsonGetString_legacy "pluginPath" "libPath" ""
    · rw [hsettings.version]
      exact jsonGetString_legacy "version" "policyVersion" "1.0"
    · rw [hsettings.startType]
      exact jsonGetString_legacy "startType" "policyStartType" "Resident"
    · rw [hsettings.group]
      exact jsonGetString_usable "group" "app"
    · rw [hsettings.startDelay]
      exact hdelay.mpr (fun h => absurd rfl h)
    · rw [hsettings.idleTime]
      exact hidle.mpr (fun _ => hint)

def idleRoot (idleTime : QJsonValue) : QJsonObject :=
  [("name", .string "demo"), ("startType", .string "OnDemand"), ("idleTime", idleTime)]

def idleFile (idleTime : QJsonValue) : QFileInfo where
  absoluteFilePath := "/usr/share/deepin-service-manager/user/demo.json"
  isFile := true
  jsonSuffix := true
  content := .document (.object (idleRoot idleTime))

theorem fromSources_null : FromSources ((Policy.new ⟨.QT, 0, 0⟩).parseConfig (idleFile .null)) (idleRoot .null) :=
  (fromSources_iff (Policy.new ⟨.QT, 0, 0⟩) (idleFile .null) (idleRoot .null) rfl).mpr (fun _ h => nomatch h)

theorem fractional_idleTime_zero :
    let half : QJsonValue := .double (1 / 2)
    let p := (Policy.new ⟨.QT, 0, 0⟩).parseConfig (idleFile half)
    (idleFile half).rootObj = some (idleRoot half) ∧ p.idleTime = 0 ∧ ¬ FromSources p (idleRoot half) := by
  refine ⟨rfl, by decide +kernel, fun h => ?_⟩
  exact absurd h.idleTime (by decide +kernel)

end DeepinServiceManager.ScalarSettings
