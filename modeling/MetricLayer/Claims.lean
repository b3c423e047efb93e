import MetricLayer.Error

/-!
# Refreshes under way

A table is rebuilt by one refresh at a time. A refresh claims the key of what it
builds before it starts and releases it in the end, however it ends.
-/

namespace MetricLayer

structure Claims where
  running : List String := []
  deriving DecidableEq, Repr

namespace Claims

def isRunning (c : Claims) (key : String) : Bool := c.running.contains key

def start (c : Claims) (key : String) : Except Error Claims :=
  if c.isRunning key then .error (.refreshInProgress key) else .ok ⟨key :: c.running⟩

def release (c : Claims) (key : String) : Claims := ⟨c.running.filter (· != key)⟩

theorem isRunning_release (c : Claims) (key other : String) :
    (c.release key).isRunning other = (c.isRunning other && other != key) := by
  rw [Bool.eq_iff_iff]
  simp [isRunning, release]

end Claims

end MetricLayer
