import Mathlib.Data.List.Nodup
import DeepinServiceManager.GroupManager
import DeepinServiceManager.ListBuilding

namespace DeepinServiceManager.PluginProcess

open GroupManager ListBuilding

def AddedFirst (signals : List PluginSignal) : Prop :=
  signals.Pairwise (fun s t => ∀ name, s = .PluginRemoved name → t ≠ .PluginAdded name)

structure ProcessInv (P : Process) : Prop where
  unborn : P.phase = .unborn → P.m_pluginMap = []
  plugins_nodup : P.m_plugins.Nodup
  plugins : ∀ name ∈ P.m_plugins, name ∈ P.m_pluginMap
  signals_nodup : P.signals.Nodup
  addedFirst : AddedFirst P.signals
  added : ∀ name, .PluginAdded name ∈ P.signals → name ∈ P.m_pluginMap
  removed : ∀ name, .PluginRemoved name ∈ P.signals → name ∈ P.m_pluginMap ∧ name ∉ P.m_plugins

structure Linked (P : Process) (name : String) (inFlight listed : Prop) : Prop where
  known : listed → name ∈ P.m_pluginMap
  unlisted : .PluginAdded name ∈ P.signals → ¬ listed
  present : P.phase = .running → name ∈ P.m_plugins → .PluginAdded name ∈ P.signals ∨ listed
  leaving : listed ∨ .PluginAdded name ∈ P.signals →
    P.phase = .running ∧ name ∈ P.m_plugins ∨ .PluginRemoved name ∈ P.signals ∨ inFlight
  dead : inFlight → P.phase = .dead

variable {P : Process} {name : String} {inFlight inFlight' listed listed' : Prop} {rest : List PluginSignal}
  {signal : PluginSignal}

theorem Linked.congr (h : Linked P name inFlight listed) (hflight : inFlight' ↔ inFlight)
    (hlisted : listed' ↔ listed) : Linked P name inFlight' listed' := by
  rw [propext hflight, propext hlisted]
  exact h

theorem ProcessInv.pluginAdded (h : ProcessInv P) (hphase : P.phase = .running) (hnew : name ∉ P.m_pluginMap) :
    ProcessInv (P.pluginAdded name) := by
  have hnotPlugin : name ∉ P.m_plugins := fun hmem => hnew (h.plugins name hmem)
  have hnotAdded : .PluginAdded name ∉ P.signals := fun hmem => hnew (h.added name hmem)
  have hnotRemoved : .PluginRemoved name ∉ P.signals := fun hmem => hnew (h.removed name hmem).1
  constructor
  · simp [Process.pluginAdded, hphase]
  · exact nodup_snoc h.plugins_nodup hnotPlugin
  · intro x hx
    exact List.mem_append.mpr ((List.mem_append.mp hx).imp_left (h.plugins x))
  · exact nodup_snoc h.signals_nodup hnotAdded
  · refine List.pairwise_append.mpr ⟨h.addedFirst, List.pairwise_singleton _ _, ?_⟩
    rintro t ht u hu x rfl heq
    rw [List.mem_singleton.mp hu] at heq
    cases heq
    exact hnotRemoved ht
  · intro x hx
    simp only [Process.pluginAdded, List.mem_append, List.mem_singleton, PluginSignal.PluginAdded.injEq] at hx ⊢
    exact hx.imp_left (h.added x)
  · intro x hx
    simp only [Process.pluginAdded, List.mem_append, List.mem_singleton, reduceCtorEq, or_false] at hx ⊢
    obtain ⟨hmap, hplugins⟩ := h.removed x hx
    refine ⟨.inl hmap, ?_⟩
    rintro (hmem | rfl)
    · exact hplugins hmem
    · exact hnew hmap

theorem Linked.pluginAdded (h : Linked P name inFlight listed) (hphase : P.phase = .running)
    (hnew : name ∉ P.m_pluginMap) : Linked (P.pluginAdded name) name inFlight listed where
  known hl := List.mem_append_left _ (h.known hl)
  unlisted _ hl := hnew (h.known hl)
  present _ _ := .inl (by simp [Process.pluginAdded])
  leaving _ := .inl ⟨hphase, by simp [Process.pluginAdded]⟩
  dead := h.dead

theorem Linked.pluginAdded_other (h : Linked P name inFlight listed) {other : String} (hne : name ≠ other) :
    Linked (P.pluginAdded other) name inFlight listed := by
  obtain ⟨hknown, hunlisted, hpresent, hleaving, hdead⟩ := h
  constructor <;> simpa [Process.pluginAdded, hne]

theorem ProcessInv.pluginRemoved (h : ProcessInv P) (hname : name ∈ P.m_plugins) :
    ProcessInv (P.pluginRemoved name) := by
  have hnotRemoved : .PluginRemoved name ∉ P.signals := fun hmem => (h.removed name hmem).2 hname
  constructor
  · exact h.unborn
  · exact h.plugins_nodup.erase name
  · exact fun x hx => h.plugins x (List.mem_of_mem_erase hx)
  · exact nodup_snoc h.signals_nodup hnotRemoved
  · refine List.pairwise_append.mpr ⟨h.addedFirst, List.pairwise_singleton _ _, ?_⟩
    rintro t _ u hu x _ heq
    rw [List.mem_singleton.mp hu] at heq
    cases heq
  · intro x hx
    simp only [Process.pluginRemoved, List.mem_append, List.mem_singleton, reduceCtorEq, or_false] at hx
    exact h.added x hx
  · intro x hx
    simp only [Process.pluginRemoved, List.mem_append, List.mem_singleton, PluginSignal.PluginRemoved.injEq] at hx
    rcases hx with hx | rfl
    · obtain ⟨hmap, hplugins⟩ := h.removed x hx
      exact ⟨hmap, fun hmem => hplugins (List.mem_of_mem_erase hmem)⟩
    · exact ⟨h.plugins x hname, h.plugins_nodup.not_mem_erase⟩

theorem Linked.pluginRemoved (h : Linked P name inFlight listed) (hnodup : P.m_plugins.Nodup) :
    Linked (P.pluginRemoved name) name inFlight listed where
  known := h.known
  unlisted hadded := h.unlisted (by simpa [Process.pluginRemoved] using hadded)
  present _ hname := absurd hname hnodup.not_mem_erase
  leaving _ := .inr (.inl (by simp [Process.pluginRemoved]))
  dead := h.dead

theorem Linked.pluginRemoved_other (h : Linked P name inFlight listed) {other : String} (hne : name ≠ other) :
    Linked (P.pluginRemoved other) name inFlight listed := by
  obtain ⟨hknown, hunlisted, hpresent, hleaving, hdead⟩ := h
  constructor <;> simpa [Process.pluginRemoved, hne, List.mem_erase_of_ne hne]

theorem ProcessInv.tail (h : ProcessInv P) (hsignals : P.signals = signal :: rest) :
    ProcessInv { P with signals := rest } := by
  have hsub : ∀ t ∈ rest, t ∈ P.signals := fun t ht => hsignals ▸ List.mem_cons_of_mem _ ht
  have hnodup := h.signals_nodup
  have haddedFirst := h.addedFirst
  rw [hsignals] at hnodup haddedFirst
  exact ⟨h.unborn, h.plugins_nodup, h.plugins, hnodup.of_cons, haddedFirst.of_cons,
    fun name hname => h.added name (hsub _ hname), fun name hname => h.removed name (hsub _ hname)⟩

theorem Linked.tail (h : Linked P name inFlight listed) (hsignals : P.signals = signal :: rest)
    (hadded : signal ≠ .PluginAdded name) (hremoved : signal ≠ .PluginRemoved name) :
    Linked { P with signals := rest } name inFlight listed := by
  have hmem : ∀ t, t ≠ signal → (t ∈ P.signals ↔ t ∈ rest) := fun t ht => by simp [hsignals, ht]
  have ha := hmem _ hadded.symm
  have hr := hmem _ hremoved.symm
  obtain ⟨hknown, hunlisted, hpresent, hleaving, hdead⟩ := h
  rw [ha] at hunlisted hpresent hleaving
  rw [hr] at hleaving
  exact ⟨hknown, hunlisted, hpresent, hleaving, hdead⟩

theorem Linked.deliverAdded (h : Linked P name inFlight listed) (hP : ProcessInv P)
    (hsignals : P.signals = .PluginAdded name :: rest) (hlisted : listed') :
    Linked { P with signals := rest } name inFlight listed' := by
  have hnodup := hP.signals_nodup
  rw [hsignals, List.nodup_cons] at hnodup
  have hmem : .PluginAdded name ∈ P.signals := by simp [hsignals]
  refine ⟨fun _ => hP.added name hmem, fun hadded => absurd hadded hnodup.1, fun _ _ => .inr hlisted, fun _ => ?_,
    h.dead⟩
  have hleaving := h.leaving (.inr hmem)
  simpa [hsignals] using hleaving

theorem Linked.deliverRemoved (h : Linked P name inFlight listed) (hP : ProcessInv P)
    (hsignals : P.signals = .PluginRemoved name :: rest) (hlisted : ¬ listed') :
    Linked { P with signals := rest } name inFlight listed' := by
  have hfirst := hP.addedFirst
  rw [hsignals] at hfirst
  have hadded : .PluginAdded name ∉ rest := fun hmem => (List.pairwise_cons.mp hfirst).1 _ hmem name rfl rfl
  have hmem : .PluginRemoved name ∈ P.signals := by simp [hsignals]
  refine ⟨fun hl => absurd hl hlisted, fun ha => absurd ha hadded, fun _ hplugin => ?_, fun hl => ?_, h.dead⟩
  · exact absurd hplugin (hP.removed name hmem).2
  · exact absurd hl (by simp [hlisted, hadded])

theorem Linked.deliverLost (h : Linked P name inFlight listed) (hflight : inFlight) (hlisted : ¬ listed')
    (hfollowed : .PluginAdded name ∈ P.signals → .PluginRemoved name ∈ P.signals) (hdead' : inFlight' → inFlight) :
    Linked P name inFlight' listed' := by
  refine ⟨fun hl => absurd hl hlisted, fun _ => hlisted, fun hrunning => ?_, fun hl => ?_,
    fun hf => h.dead (hdead' hf)⟩
  · rw [h.dead hflight] at hrunning
    cases hrunning
  · exact .inr (.inl (hfollowed (hl.resolve_left hlisted)))

end DeepinServiceManager.PluginProcess
