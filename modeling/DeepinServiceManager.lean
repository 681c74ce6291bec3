import DeepinServiceManager.TransitionRuns
import DeepinServiceManager.AcyclicRelations
import DeepinServiceManager.CheckedLoops
import DeepinServiceManager.OrderedScans
import DeepinServiceManager.SortedMaps
import DeepinServiceManager.ListBuilding
import DeepinServiceManager.JsonValues
import DeepinServiceManager.Policy
import DeepinServiceManager.AdjacencyGraph
import DeepinServiceManager.TopologicalSort
import DeepinServiceManager.SortPolicy
import DeepinServiceManager.PolicyParsing
import DeepinServiceManager.Services
import DeepinServiceManager.PluginLoader
import DeepinServiceManager.ConfigScans
import DeepinServiceManager.FileUse
import DeepinServiceManager.RejectedFiles
import DeepinServiceManager.NameLookup
import DeepinServiceManager.GroupLaunch
import DeepinServiceManager.ServiceLifeCycle
import DeepinServiceManager.RegisterRace
import DeepinServiceManager.LibraryPointer
import DeepinServiceManager.LockTimer
import DeepinServiceManager.StartOrder
import DeepinServiceManager.GroupManager
import DeepinServiceManager.PluginProcess
import DeepinServiceManager.PluginsMirror
import DeepinServiceManager.DBusHooks
import DeepinServiceManager.HiddenPaths
import DeepinServiceManager.ServiceRegistry
import DeepinServiceManager.IdleTimer
import DeepinServiceManager.IdleExit
import DeepinServiceManager.CyclicGroups
import DeepinServiceManager.TwinDirectories
import DeepinServiceManager.SessionTypes
import DeepinServiceManager.ByteWords
import DeepinServiceManager.QtVersion
import DeepinServiceManager.SectionSearch
import DeepinServiceManager.SoFileBounds
import DeepinServiceManager.ElfFiles
import DeepinServiceManager.SoFileVersions
import DeepinServiceManager.ForeignLayouts
import DeepinServiceManager.GraphDestruction
import DeepinServiceManager.SubPathLookup
import DeepinServiceManager.RegistrationOrder
import DeepinServiceManager.PolicyMaps
import DeepinServiceManager.UninitialisedPolicys
import DeepinServiceManager.TimerIntervals
import DeepinServiceManager.ScalarSettings
import DeepinServiceManager.WeakOrders
import DeepinServiceManager.GroupOrder
import DeepinServiceManager.HandleOwnership
import DeepinServiceManager.UnregisterFailures
import DeepinServiceManager.SortMachine
import DeepinServiceManager.GroupRegistry
import DeepinServiceManager.GroupProjection
import DeepinServiceManager.CoreGroup
import DeepinServiceManager.DependencyChains
import DeepinServiceManager.DependencyLevels
import DeepinServiceManager.PolicyImages
import DeepinServiceManager.CStrings
import DeepinServiceManager.ProcessName
import DeepinServiceManager.ServiceTree
import DeepinServiceManager.PluginProtocol
import DeepinServiceManager.ManagerExit
import DeepinServiceManager.LibraryChecks
import DeepinServiceManager.GroupObjects
