import Mathlib.Data.List.Basic
import Mathlib.Logic.Function.Basic

namespace DeepinServiceManager

inductive PluginSignal
  | PluginAdded (name : String)
  | PluginRemoved (name : String)
  deriving DecidableEq

inductive NameOwnerChanged
  | acquired (service : String) (owner : ℕ)
  | lost (service : String) (old : ℕ)
  deriving DecidableEq

namespace GroupManager

def addPlugin (m_plugins : List String) (pluginName : String) : List String := m_plugins ++ [pluginName]

def removePlugin (m_plugins : List String) (pluginName : String) : List String :=
  if m_plugins.contains pluginName then m_plugins.erase pluginName else m_plugins

def onNameOwnerChanged (m_plugins : List String) : NameOwnerChanged → List String
  | .acquired _ _ => m_plugins
  | .lost service _ => if !m_plugins.contains service then m_plugins else m_plugins.erase service

/-! The processes of a group, the bus, and the group manager in the main process. -/

inductive Phase
  | unborn
  | running
  | dead
  deriving DecidableEq

/-- `registered` says that the call of `RegisterGroup` returned, and `signals` are on their way to the group
manager, in the order they were emitted. -/
structure Process where
  phase : Phase
  registered : Bool
  m_pluginMap : List String
  m_plugins : List String
  signals : List PluginSignal

def Process.pluginAdded (P : Process) (name : String) : Process :=
  { P with
    m_pluginMap := P.m_pluginMap ++ [name]
    m_plugins := P.m_plugins ++ [name]
    signals := P.signals ++ [.PluginAdded name] }

def Process.pluginRemoved (P : Process) (name : String) : Process :=
  { P with m_plugins := P.m_plugins.erase name, signals := P.signals ++ [.PluginRemoved name] }

/-- `loads` tells which running process created a service for a plugin, `owners` is the table of the bus, and
`ownerChanges` are the signals of the bus on their way. `listed` records for every entry of `m_plugins` the
process whose `PluginAdded` appended it. -/
structure State where
  process : ℕ → Process
  loads : List (ℕ × String)
  owners : List (ℕ × String)
  ownerChanges : List NameOwnerChanged
  m_plugins : List String
  listed : List (ℕ × String)

def init : State := ⟨fun _ => ⟨.unborn, false, [], [], []⟩, [], [], [], [], []⟩

inductive Event
  | launch (p : ℕ)
  | registerGroup (p : ℕ)
  | createService (p : ℕ) (name : String)
  | addPlugin (p : ℕ) (name : String)
  | registerService (p : ℕ) (name : String)
  | idleSignal (p : ℕ) (name : String)
  | die (p : ℕ)
  | deliver (p : ℕ)
  | deliverOwnerChange

def State.setProcess (s : State) (p : ℕ) (process : Process) : State :=
  { s with process := Function.update s.process p process }

def deliverSignal (s : State) (p : ℕ) : PluginSignal → State
  | .PluginAdded name => { s with m_plugins := addPlugin s.m_plugins name, listed := s.listed ++ [(p, name)] }
  | .PluginRemoved name => { s with m_plugins := removePlugin s.m_plugins name, listed := s.listed.erase (p, name) }

def deliverChange (s : State) (change : NameOwnerChanged) : State :=
  { s with
    m_plugins := onNameOwnerChanged s.m_plugins change
    listed := match change with
      | .acquired _ _ => s.listed
      | .lost name p => s.listed.erase (p, name) }

/-- Plugin names are assumed to be unique over all configuration files, and a plugin to be loaded by at most one live
process: the guards of `createService` and `addPlugin` on the name stand for this and are not in the code. A name that
is owned already stays with its owner, and the result of `registerService` is ignored. -/
def step (s : State) : Event → Option State
  | .launch p =>
    if (s.process p).phase = .unborn then some (s.setProcess p { s.process p with phase := .running }) else none
  | .registerGroup p =>
    if (s.process p).phase = .running then some (s.setProcess p { s.process p with registered := true }) else none
  | .createService p name =>
    if (s.process p).phase = .running ∧ (s.process p).registered ∧ name ∉ s.loads.map Prod.snd then
      some { s with loads := s.loads ++ [(p, name)] }
    else none
  | .addPlugin p name =>
    if (s.process p).phase = .running ∧ (p, name) ∈ s.loads ∧ name ∉ (s.process p).m_pluginMap then
      some (s.setProcess p ((s.process p).pluginAdded name))
    else none
  | .registerService p name =>
    if (p, name) ∈ s.loads ∧ name ∉ s.owners.map Prod.snd then
      some { s with owners := s.owners ++ [(p, name)], ownerChanges := s.ownerChanges ++ [.acquired name p] }
    else none
  | .idleSignal p name =>
    if (s.process p).phase = .running ∧ name ∈ (s.process p).m_plugins then
      some (s.setProcess p ((s.process p).pluginRemoved name))
    else none
  | .die p =>
    if (s.process p).phase = .running then
      some { s.setProcess p { s.process p with phase := .dead } with
        loads := s.loads.filter (fun load => load.1 ≠ p)
        owners := s.owners.filter (fun owner => owner.1 ≠ p)
        ownerChanges := s.ownerChanges ++
          (s.owners.filter (fun owner => owner.1 = p)).map (fun owner => .lost owner.2 p) }
    else none
  | .deliver p =>
    match (s.process p).signals with
    | [] => none
    | signal :: rest => some (deliverSignal (s.setProcess p { s.process p with signals := rest }) p signal)
  | .deliverOwnerChange =>
    match s.ownerChanges with
    | [] => none
    | change :: rest => some (deliverChange { s with ownerChanges := rest } change)

def Quiet (s : State) : Prop := (∀ p, (s.process p).signals = []) ∧ s.ownerChanges = []

def Mirrors (s : State) : Prop := ∀ name,
  (∀ p, (s.process p).phase = .running → name ∈ (s.process p).m_plugins → s.m_plugins.count name = 1) ∧
    ((∀ p, (s.process p).phase = .running → name ∉ (s.process p).m_plugins) → name ∉ s.m_plugins)

end GroupManager

end DeepinServiceManager
