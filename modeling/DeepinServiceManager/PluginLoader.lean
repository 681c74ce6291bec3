import DeepinServiceManager.PolicyParsing
import DeepinServiceManager.Services
import DeepinServiceManager.SortPolicy

namespace DeepinServiceManager

inductive BusType
  | SystemBus
  | SessionBus
  deriving DecidableEq

/-- What the scans read outside the process. `pluginQtVersion` is the outcome of `checkLibraryQtVersion` on the
library behind a plugin path. -/
structure Host where
  env : Environment
  configDir : BusType → List QFileInfo
  pluginQtVersion : String → Bool

structure PluginLoader where
  m_type : BusType
  m_isResident : Bool

def QFileInfo.isConfig (file : QFileInfo) : Bool := file.isFile && file.jsonSuffix

def configFiles (dir : List QFileInfo) : List PolicyPtr :=
  (List.range dir.length).filter (fun i => (dir[i]?).any QFileInfo.isConfig)

/-- The heap of a scan: the object allocated for the file at each position, after `parseConfig`. -/
def parsedPolicys (dir : List QFileInfo) (memory : PolicyPtr → Uninitialised) (i : PolicyPtr) : Policy :=
  match dir[i]? with
  | some file => (Policy.new (memory i)).parseConfig file
  | none => Policy.new (memory i)

def checkPluginQtVersion (host : Host) (pluginPath : String) : Bool := host.pluginQtVersion pluginPath

def qtVersionOk (host : Host) (policy : Policy) : Bool :=
  !(policy.sdkType = .QT && !checkPluginQtVersion host policy.pluginPath)

def createService (policy : Policy) : Option Backend :=
  match policy.sdkType with
  | .QT => some .ServiceQtDBus
  | .SD => some .ServiceSDBus
  | .unset _ => none

structure Loaded where
  created : List PolicyPtr
  added : List PolicyPtr
  deriving DecidableEq, Inhabited

namespace PluginLoader

-- `startDelay * 1000` in the arithmetic of `int`
def startDelayMsec (policy : Policy) : ℤ := (policy.startDelay * 1000).bmod (2 ^ 32)

def groupAccepts (host : Host) (loader : PluginLoader) (group : String) (policy : Policy) : Bool :=
  policy.group = group && loader.m_isResident = policy.isResident && policy.matchesEnvironment host.env &&
    qtVersionOk host policy

def groupPolicys (host : Host) (loader : PluginLoader) (memory : PolicyPtr → Uninitialised) (group : String) :
    List PolicyPtr :=
  let dir := host.configDir loader.m_type
  (configFiles dir).filter (fun i => groupAccepts host loader group (parsedPolicys dir memory i))

-- The nested event loop of a policy whose timer never fires does not return.
def startLoop (timerFires : ℤ → Bool) (heap : PolicyPtr → Policy) (sortedPolicys : List PolicyPtr) :
    List PolicyPtr :=
  sortedPolicys.takeWhile (fun policy => timerFires (startDelayMsec (heap policy)))

def addsPlugin (policy : Policy) : Bool := (createService policy).isSome && !policy.pluginPath.isEmpty

def loadByGroup (host : Host) (loader : PluginLoader) (memory : PolicyPtr → Uninitialised)
    (timerFires : ℤ → Bool) (group : String) : Option Loaded := do
  let heap := parsedPolicys (host.configDir loader.m_type) memory
  let sortedPolicys ← sortPolicy heap (groupPolicys host loader memory group)
  let created := startLoop timerFires heap sortedPolicys
  return ⟨created, created.filter (fun policy => addsPlugin (heap policy))⟩

def nameAccepts (host : Host) (name : String) (policy : Policy) : Bool :=
  policy.name = name && policy.matchesEnvironment host.env && qtVersionOk host policy

def loadByNameFile (host : Host) (loader : PluginLoader) (memory : PolicyPtr → Uninitialised) (name : String) :
    Option PolicyPtr :=
  let dir := host.configDir loader.m_type
  (configFiles dir).find? (fun i => nameAccepts host name (parsedPolicys dir memory i))

def loadByName (host : Host) (loader : PluginLoader) (memory : PolicyPtr → Uninitialised) (name : String) : Loaded :=
  match loader.loadByNameFile host memory name with
  | none => ⟨[], []⟩
  | some i => ⟨[i], [i].filter (fun policy => addsPlugin (parsedPolicys (host.configDir loader.m_type) memory policy))⟩

def getGroupFile (host : Host) (loader : PluginLoader) (memory : PolicyPtr → Uninitialised) (name : String) :
    Option PolicyPtr :=
  let dir := host.configDir loader.m_type
  match (configFiles dir).find? (fun i => (parsedPolicys dir memory i).name = name) with
  | none => none
  | some i => if (parsedPolicys dir memory i).matchesEnvironment host.env then some i else none

def getGroup (host : Host) (loader : PluginLoader) (memory : PolicyPtr → Uninitialised) (name : String) : String :=
  match loader.getGroupFile host memory name with
  | none => ""
  | some i => (parsedPolicys (host.configDir loader.m_type) memory i).group

end PluginLoader

namespace ServiceManager

def GroupSiral : List String := ["core", "dde", "app", "deepin-daemon"]

def indexOf (l : List String) (x : String) : ℤ := if l.contains x then l.idxOf x else -1

def groupLess (group1 group2 : String) : Bool :=
  if !GroupSiral.contains group1 then false else indexOf GroupSiral group1 < indexOf GroupSiral group2

def collectGroup (host : Host) (heap : PolicyPtr → Policy) (groups : List String) (i : PolicyPtr) : List String :=
  if !(heap i).matchesEnvironment host.env then groups
  else if !groups.contains (heap i).group && !(heap i).group.isEmpty then groups ++ [(heap i).group]
  else groups

def collectGroups (host : Host) (heap : PolicyPtr → Policy) (files : List PolicyPtr) : List String :=
  files.foldl (collectGroup host heap) []

structure Launch where
  coreAdded : List PolicyPtr
  startUnits : List String

/-- `std::sort` with the comparator as an argument; `none` is undefined behaviour. -/
abbrev Sorter := (String → String → Bool) → List String → Option (List String)

def initGroup (host : Host) (sort : Sorter) (type : BusType) (memory coreMemory : PolicyPtr → Uninitialised)
    (timerFires : ℤ → Bool) : Option Launch := do
  let dir := host.configDir type
  let groups ← sort groupLess (collectGroups host (parsedPolicys dir memory) (configFiles dir))
  if groups.contains "core" then
    let loaded ← PluginLoader.loadByGroup host ⟨type, true⟩ coreMemory timerFires "core"
    return ⟨loaded.added, groups.erase "core"⟩
  else
    return ⟨[], groups⟩

end ServiceManager

namespace PluginManager

def loadByGroup (host : Host) (type : BusType) (memory : PolicyPtr → Uninitialised) (timerFires : ℤ → Bool)
    (group : String) : Option Loaded :=
  PluginLoader.loadByGroup host ⟨type, true⟩ memory timerFires group

/-- The group passed to `RegisterGroup` and the calls of the loader; each of the three scans has objects of
its own. -/
def loadByName (host : Host) (type : BusType) (memory memory' memory'' : PolicyPtr → Uninitialised)
    (name : String) : Option (String × Loaded) :=
  let loader : PluginLoader := ⟨type, false⟩
  if (loader.getGroup host memory name).isEmpty then none
  else some (loader.getGroup host memory' name, loader.loadByName host memory'' name)

end PluginManager

end DeepinServiceManager
