import McpHeartbeat.Core.Errors
import McpHeartbeat.Py.Datetime

/-!
# Clocks

* `FakeClock`: a wall clock and a monotonic one, set by assignment; `advance` moves both, `skewWall`
  steps the first;
* `Crosses`: a change of instant that passes a mark.

Seconds are whole microseconds.
-/

namespace McpHeartbeat

/-- A wall clock and a monotonic one. -/
structure FakeClock where
  wall : Datetime
  monotonic : ℤ := 1000 * second
deriving DecidableEq

namespace FakeClock

/-- `FakeClock.now`. -/
def now (k : FakeClock) : ℤ := k.wall.instant

/-- What `FakeClock.advance` raises. -/
inductive AdvanceError
  | backwards
  | overflowError
deriving DecidableEq

/-- The text of a step backwards; the other text is the interpreter's. -/
def AdvanceError.text? : AdvanceError → Option Str
  | backwards => some (py "FakeClock cannot advance backwards")
  | overflowError => none

/-- `FakeClock.advance`: move both clocks forward. -/
def advance (k : FakeClock) (seconds : ℤ) : Except AdvanceError FakeClock :=
  if seconds < 0 then .error .backwards
  else match k.wall.add? seconds with
    | some wall => .ok { wall, monotonic := k.monotonic + seconds }
    | none => .error .overflowError

/-- `FakeClock.skew_wall`: step the wall clock only. -/
def skewWall (k : FakeClock) (seconds : ℤ) : Except Error FakeClock :=
  match k.wall.add? seconds with
  | some wall => .ok { k with wall }
  | none => .error .overflowError

variable {k k' : FakeClock} {seconds : ℤ}

theorem now_nonneg (k : FakeClock) : 0 ≤ k.now := Int.natCast_nonneg _

theorem now_lt (k : FakeClock) : k.now < maxMicros := by
  have h := k.wall.lt
  show (k.wall.micros : ℤ) < maxMicros
  omega

/-- Both clocks move by as much, and not backwards. -/
theorem advance_ok (h : k.advance seconds = .ok k') :
    0 ≤ seconds ∧ k'.monotonic = k.monotonic + seconds ∧ k'.now = k.now + seconds := by
  unfold advance at h
  split_ifs at h with hneg
  cases hw : k.wall.add? seconds with
  | none => simp [hw] at h
  | some wall =>
    rw [hw] at h
    obtain rfl := Except.ok.inj h
    exact ⟨not_lt.mp hneg, rfl, Datetime.ofInstant?_eq_some hw⟩

/-- A step of the wall clock. -/
theorem skewWall_ok (h : k.skewWall seconds = .ok k') :
    k'.monotonic = k.monotonic ∧ k'.now = k.now + seconds := by
  unfold skewWall Datetime.add? Datetime.ofInstant? at h
  split_ifs at h with hr
  obtain rfl := Except.ok.inj h
  refine ⟨rfl, ?_⟩
  show ((k.wall.instant + seconds).toNat : ℤ) = k.wall.instant + seconds
  omega

end FakeClock

/-- Between the two instants, in either order, the mark passes. -/
def Crosses (t t' mark : ℤ) : Prop := (t < mark ∧ mark ≤ t') ∨ (t' < mark ∧ mark ≤ t)

theorem not_crosses_iff {t t' mark : ℤ} : ¬ Crosses t t' mark ↔ (mark ≤ t ↔ mark ≤ t') := by
  unfold Crosses
  omega

/-- No clock passes a mark outside the years `1` to `9999`. -/
theorem not_crosses_of_out {k k' : FakeClock} {mark : ℤ} (h : ¬ (0 ≤ mark ∧ mark < maxMicros)) :
    ¬ Crosses k.now k'.now mark := by
  have h₁ := k.now_nonneg
  have h₂ := k'.now_nonneg
  have h₃ := k.now_lt
  have h₄ := k'.now_lt
  unfold Crosses
  omega

end McpHeartbeat
