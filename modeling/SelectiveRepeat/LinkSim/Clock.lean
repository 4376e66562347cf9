import Mathlib.Data.Prod.Lex
import SelectiveRepeat.LinkSim.PriorityQueue

/-!
# Times in link_sim

A `struct timeval` is ordered by its seconds, then by its microseconds. The clock keeps
the microseconds below a million, but the expiration date of a delayed packet adds its
delay to the two fields separately and never carries, so that its microseconds stay
below two millions only. Wherever they exceed a million the order of the fields is no
longer the order of the times.

`timeval_diff` borrows a second if the microseconds underflow, but gives it back to them
only if the seconds are not zero then.
-/

namespace SelectiveRepeat

/-- `struct timeval` -/
structure Timeval where
  tvSec : Int
  tvUsec : Int
  deriving DecidableEq, Repr

instance : Inhabited Timeval := ⟨⟨0, 0⟩⟩

/-- What `clock_gettime` returns. -/
structure Timespec where
  tvSec : Int
  tvNsec : Fin 1000000000

/-- `update_time`, where the clock can be read. -/
def updateTime (ts : Timespec) : Timeval := ⟨ts.tvSec, ((ts.tvNsec : Nat) / 1000 : Nat)⟩

/-- `timeval_cmp` -/
def timevalCmp (left right : Timeval) : Bool :=
  if left.tvSec = right.tvSec then right.tvUsec < left.tvUsec else right.tvSec < left.tvSec

/-- `timeval_diff` -/
def timevalDiff (a b : Timeval) : Timeval :=
  let tvSec := a.tvSec - b.tvSec
  let tvUsec := a.tvUsec - b.tvUsec
  if tvUsec < 0 then
    let tvSec := tvSec - 1
    if tvSec ≠ 0 then ⟨tvSec, tvUsec + 1000000⟩ else ⟨tvSec, tvUsec⟩
  else ⟨tvSec, tvUsec⟩

/-- The date at which a packet delayed by `appliedDelay` milliseconds expires. -/
def expirationDate (lastClock : Timeval) (appliedDelay : Nat) : Timeval where
  tvSec := lastClock.tvSec + (appliedDelay / 1000 : Nat)
  tvUsec := lastClock.tvUsec + (appliedDelay % 1000 * 1000 : Nat)

/-- `get_queue_timeout` for the date of the packet in front: the microseconds of a
timeout never come from a date that has passed. -/
def queueTimeout (lastClock ts : Timeval) : Timeval :=
  let timeout := timevalDiff ts lastClock
  if timeout.tvSec < 0 ∨ (timeout.tvSec = 0 ∧ timeout.tvUsec ≤ 0) then ⟨0, 1000⟩ else timeout

/-! ## The order of dates -/

/-- What the fields are compared by. -/
def Timeval.key (time : Timeval) : Int ×ₗ Int := toLex (time.tvSec, time.tvUsec)

/-- `timeval_cmp` compares dates as pairs of seconds and microseconds do. -/
theorem timevalCmp_compares : Compares timevalCmp Timeval.key := by
  intro one other
  rw [timevalCmp, Timeval.key, Timeval.key, Prod.Lex.toLex_lt_toLex]
  by_cases same : one.tvSec = other.tvSec
  · simp [same]
  · simp [same, Ne.symm same]

/-- The time in microseconds. -/
def Timeval.micros (time : Timeval) : Int := time.tvSec * 1000000 + time.tvUsec

/-- The fields as a clock gives them. -/
def Timeval.Normal (time : Timeval) : Prop := 0 ≤ time.tvUsec ∧ time.tvUsec < 1000000

/-- A reading of the clock has its microseconds below a second. -/
theorem updateTime_normal (ts : Timespec) : (updateTime ts).Normal := by
  have bounded := ts.tvNsec.isLt
  simp only [updateTime, Timeval.Normal]
  omega

/-- `timeval_cmp` is non-zero exactly if its first argument is the later one. -/
theorem timevalCmp_iff (left right : Timeval) : timevalCmp left right = true ↔
    right.tvSec < left.tvSec ∨ (right.tvSec = left.tvSec ∧ right.tvUsec < left.tvUsec) := by
  rw [timevalCmp]
  by_cases same : left.tvSec = right.tvSec
  · simp [same]
  · simp [same, Ne.symm same]

/-! ## Expiration dates -/

/-- A packet whose date is past by its fields may lack 998999 microseconds in time, and
none if its delay is a whole number of seconds. -/
theorem expired_lacks {received now : Timeval} (receivedNormal : received.Normal)
    (nowNormal : now.Normal) {applied : Nat}
    (past : timevalCmp now (expirationDate received applied) = true) :
    received.micros + applied * 1000 ≤ now.micros + 998999 ∧
      (applied % 1000 = 0 → received.micros + applied * 1000 < now.micros) := by
  obtain ⟨receivedLow, receivedHigh⟩ := receivedNormal
  obtain ⟨nowLow, nowHigh⟩ := nowNormal
  rw [timevalCmp_iff] at past
  simp only [expirationDate, Timeval.micros] at past ⊢
  omega

end SelectiveRepeat
