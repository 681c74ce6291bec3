import DeepinServiceManager.ConfigScans

namespace DeepinServiceManager.TimerIntervals

open ConfigScans PluginLoader

/-- The times in milliseconds are the configured ones, and no timer is given a negative one. -/
structure TimesKept (s : ServiceBase) (p : Policy) : Prop where
  delay : startDelayMsec p = 1000 * p.startDelay
  delay_nonneg : 0 ≤ startDelayMsec p
  interval : (s.init p).m_timer.interval = 60000 * p.idleTime
  interval_nonneg : 0 ≤ (s.init p).m_timer.interval

theorem bmod_kept_iff {x : ℤ} : (x.bmod (2 ^ 32) = x ∧ 0 ≤ x.bmod (2 ^ 32)) ↔ 0 ≤ x ∧ x < 2 ^ 31 := by
  constructor
  · rintro ⟨heq, hnonneg⟩
    have hlt : x.bmod (2 ^ 32) < ((2 ^ 32 : ℕ) + 1) / 2 := Int.bmod_lt (by decide)
    rw [heq] at hnonneg hlt
    exact ⟨hnonneg, by omega⟩
  · rintro ⟨hnonneg, hlt⟩
    have heq : x.bmod (2 ^ 32) = x := Int.bmod_eq_of_le (by omega) (by omega)
    rw [heq]
    exact ⟨rfl, hnonneg⟩

theorem startDelayMsec_kept_iff (p : Policy) : (startDelayMsec p = 1000 * p.startDelay ∧ 0 ≤ startDelayMsec p) ↔
    0 ≤ p.startDelay ∧ p.startDelay ≤ 2147483 := by
  rw [startDelayMsec, mul_comm 1000 p.startDelay, bmod_kept_iff]
  constructor <;> omega

theorem interval_kept_iff (s : ServiceBase) (p : Policy) :
    ((s.init p).m_timer.interval = 60000 * p.idleTime ∧ 0 ≤ (s.init p).m_timer.interval) ↔
      0 ≤ p.idleTime ∧ p.idleTime ≤ 35791 := by
  have hinterval : (s.init p).m_timer.interval = (p.idleTime * 60 * 1000).bmod (2 ^ 32) := rfl
  have hproduct : 60000 * p.idleTime = p.idleTime * 60 * 1000 := by omega
  rw [hinterval, hproduct, bmod_kept_iff]
  constructor <;> omega

theorem timesKept_iff (s : ServiceBase) (p : Policy) : TimesKept s p ↔
    (0 ≤ p.startDelay ∧ p.startDelay ≤ 2147483) ∧ 0 ≤ p.idleTime ∧ p.idleTime ≤ 35791 := by
  rw [← startDelayMsec_kept_iff p, ← interval_kept_iff s p]
  constructor
  · rintro ⟨hdelay, hdelay', hinterval, hinterval'⟩
    exact ⟨⟨hdelay, hdelay'⟩, hinterval, hinterval'⟩
  · rintro ⟨⟨hdelay, hdelay'⟩, hinterval, hinterval'⟩
    exact ⟨hdelay, hdelay', hinterval, hinterval'⟩

def delayedFile : QFileInfo := configFile [("name", .string "org.deepin.demo"), ("startDelay", .double 3000000)]

theorem delay_wrapped :
    let p := (Policy.new ⟨.QT, 0, 0⟩).parseConfig delayedFile
    groupPolicys (sampleHost "x11" [delayedFile]) ⟨.SessionBus, true⟩ (fun _ => ⟨.QT, 0, 0⟩) "app" = [0] ∧
      p.startDelay = 3000000 ∧ startDelayMsec p = -1294967296 ∧ ¬ TimesKept .new p := by
  intro p
  have hmsec : startDelayMsec p = -1294967296 := by decide
  refine ⟨by decide, by decide, hmsec, fun h => ?_⟩
  have hnonneg := h.delay_nonneg
  rw [hmsec] at hnonneg
  exact absurd hnonneg (by decide)

end DeepinServiceManager.TimerIntervals
