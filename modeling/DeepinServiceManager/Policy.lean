import Mathlib.Data.String.Basic
import DeepinServiceManager.JsonValues
import DeepinServiceManager.SortedMaps

namespace DeepinServiceManager

open SortedMaps

/-- `unset` is what a `Policy` holds before any branch assigns the member. -/
inductive SDKType
  | QT
  | SD
  | unset (raw : ℤ)
  deriving DecidableEq

structure PolicyPath where
  path : String
  needPermission : Bool

structure ConditionSpec where
  sessionType : String := ""

def ConditionSpec.isEmpty (c : ConditionSpec) : Bool := c.sessionType.isEmpty

structure Uninitialised where
  sdkType : SDKType
  startDelay : ℤ
  idleTime : ℤ

structure Policy where
  mapPathHide : SortedMap String Bool
  mapSubPath : SortedMap String Bool
  mapPath : SortedMap String PolicyPath
  name : String
  group : String
  pluginPath : String
  version : String
  startType : String
  dependencies : List String
  sdkType : SDKType
  startDelay : ℤ
  idleTime : ℤ
  condition : ConditionSpec

structure Environment where
  xdgSessionType : String
  waylandDisplay : String
  display : String
  toLower : String → String

def currentSessionType (env : Environment) : String :=
  let fromEnv := env.toLower env.xdgSessionType
  if !fromEnv.isEmpty then fromEnv
  else if !env.waylandDisplay.isEmpty then "wayland"
  else if !env.display.isEmpty then "x11"
  else ""

inductive JsonFile
  | openError
  | parseError
  | nullDocument
  | document (doc : QJsonDocument)

/-- A directory entry. `jsonSuffix` is the outcome of comparing its suffix with "json" without case. -/
structure QFileInfo where
  absoluteFilePath : String
  isFile : Bool
  jsonSuffix : Bool
  content : JsonFile

def readJsonFile (file : QFileInfo) : Option QJsonDocument :=
  match file.content with
  | .document doc => some doc
  | .openError | .parseError | .nullDocument => none

namespace Policy

def new (u : Uninitialised) : Policy where
  mapPathHide := .empty
  mapSubPath := .empty
  mapPath := .empty
  name := ""
  group := ""
  pluginPath := ""
  version := ""
  startType := ""
  dependencies := []
  sdkType := u.sdkType
  startDelay := u.startDelay
  idleTime := u.idleTime
  condition := {}

def checkPathHide (p : Policy) (path : String) : Bool := (p.mapPathHide.find? path).getD false

def paths (p : Policy) : List String := p.mapSubPath.keys

def allowSubPath (p : Policy) (path : String) : Bool := (p.mapSubPath.find? path).getD false

def isResident (p : Policy) : Bool := p.startType = "Resident"

def parsePolicyPath (p : Policy) (obj : QJsonObject) : Bool × Policy :=
  let path := (jsonGetString obj "path" "").2
  if path.isEmpty then (false, p)
  else
    let pathHide := (jsonGetBool obj "pathhide" false).2
    let subpath := (jsonGetBool obj "subpath" false).2
    (true, { p with
      mapPathHide := p.mapPathHide.insert path pathHide
      mapSubPath := p.mapSubPath.insert path subpath
      mapPath := p.mapPath.insert path ⟨path, false⟩ })

def parsePolicyList (p : Policy) : List QJsonValue → Bool × Policy
  | [] => (true, p)
  | .object obj :: rest =>
    if (p.parsePolicyPath obj).1 then (p.parsePolicyPath obj).2.parsePolicyList rest
    else (false, (p.parsePolicyPath obj).2)
  | _ :: rest => p.parsePolicyList rest

def parsePolicy (p : Policy) (obj : QJsonObject) : Bool × Policy :=
  let p := { p with mapPathHide := .empty, mapPath := .empty }
  match obj.value "policy" with
  | none => (true, p)
  | some (.array policyList) => p.parsePolicyList policyList
  | some _ => (false, p)

def readScalars (p : Policy) (rootObj : QJsonObject) : Policy :=
  let libPath := (jsonGetString rootObj "libPath" "").2
  let policyVersion := (jsonGetString rootObj "policyVersion" "1.0").2
  let policyStartType := (jsonGetString rootObj "policyStartType" "Resident").2
  let sdkTypeString := (jsonGetString rootObj "pluginType" "qt").2
  { p with
    name := (jsonGetString rootObj "name" "").2
    group := (jsonGetString rootObj "group" "app").2
    pluginPath := (jsonGetString rootObj "pluginPath" libPath).2
    version := (jsonGetString rootObj "version" policyVersion).2
    startType := (jsonGetString rootObj "startType" policyStartType).2
    dependencies := (jsonGetStringList rootObj "dependencies" []).2
    startDelay := (jsonGetInt rootObj "startDelay" 0).2
    idleTime := (jsonGetInt rootObj "idleTime" 10).2
    sdkType := if sdkTypeString = "qt" then .QT else if sdkTypeString = "sd" then .SD else p.sdkType }

def parseCondition (p : Policy) (rootObj : QJsonObject) : Policy :=
  match rootObj.value "condition" with
  | some (.object conditionObj) => { p with condition := ⟨(jsonGetString conditionObj "sessionType" "").2⟩ }
  | _ => { p with condition := {} }

def parseConfig (p : Policy) (file : QFileInfo) : Policy :=
  if file.absoluteFilePath.isEmpty then p
  else match readJsonFile file with
    | none => p
    | some jsonDoc =>
      let rootObj := jsonDoc.toObject
      let p := p.readScalars rootObj
      if p.name.isEmpty then p
      else if (p.parsePolicy rootObj).1 then (p.parsePolicy rootObj).2.parseCondition rootObj
      else (p.parsePolicy rootObj).2

def matchesEnvironment (env : Environment) (p : Policy) : Bool :=
  if p.condition.isEmpty then true
  else
    let actual := currentSessionType env
    let expected := env.toLower p.condition.sessionType
    if actual.isEmpty then true else actual = expected

end Policy

end DeepinServiceManager
