import Mathlib.Tactic

/-!
# The compile-time profile

The preprocessor switches that change the meaning of the security modules.
Router joining and replay policy C each require parent recovery.
-/

structure Build where
  parentRecovery : Bool
  routerJoin : Bool
  replayPolicyC : Bool
  defaultTcKey : Bool
  router_recovers : routerJoin = true → parentRecovery = true
  policy_recovers : replayPolicyC = true → parentRecovery = true

namespace Build

/-- `NV_RECORD_MAX`. -/
def recordMax (build : Build) : Nat := if build.parentRecovery then 160 else 128

/-- `SECURITY_COUNTER_PAYLOAD_MAX`, also `SECURITY_KEYS_RECORD_MAX`. -/
def payloadMax (build : Build) : Nat := build.recordMax - 16

theorem recordMax_le (build : Build) : build.recordMax ≤ 160 := by
  unfold recordMax
  split <;> omega

theorem recordMax_ge (build : Build) : 128 ≤ build.recordMax := by
  unfold recordMax
  split <;> omega

/-- No switch set. -/
def plain : Build := ⟨false, false, false, false, fun h => h, fun h => h⟩

end Build
