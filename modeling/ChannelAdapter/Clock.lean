/-!
Time and cancellation. A program asks whether it has been cancelled, and sleeps until the sleep is
over or it is cancelled; a clock that is a value makes both exact. Times are in milliseconds.
-/

namespace ChannelAdapter

class MonadClock (m : Type → Type) where
  isCancelled : m Bool
  sleep : Nat → m Unit

structure Clock where
  now : Nat
  isCancelled : Bool
  /-- When a cancellation comes from outside. -/
  cancelAt : Option Nat
  deriving DecidableEq, Repr

namespace Clock

/-- The longest sleep, thirty years of 365 days. A longer one ends then. -/
def longest : Nat := 946080000000

/-- A clock at its start. Whoever is to cancel sleeps until then, but no longer than `longest`. -/
def start (cancelAt : Option Nat) : Clock :=
  ⟨0, false, cancelAt.map (min longest)⟩

def cancel (c : Clock) : Clock :=
  { c with isCancelled := true }

def advance (c : Clock) (ms : Nat) : Clock :=
  let now := c.now + min longest ms
  { c with now, isCancelled := c.isCancelled || c.cancelAt.any (· ≤ now) }

def sleep (c : Clock) (ms : Nat) : Clock :=
  if c.isCancelled then c
  else
    match c.cancelAt with
    | some t =>
        if t ≤ c.now + min longest ms then { c with now := max c.now t, isCancelled := true }
        else c.advance ms
    | none => c.advance ms

@[simp] theorem isCancelled_cancel (c : Clock) : c.cancel.isCancelled = true := rfl

theorem sleep_of_isCancelled {c : Clock} (h : c.isCancelled = true) (ms : Nat) :
    c.sleep ms = c := by
  simp [sleep, h]

theorem now_sleep {c : Clock} {ms : Nat} (h : (c.sleep ms).isCancelled = false) :
    (c.sleep ms).now = c.now + min longest ms := by
  unfold sleep at h ⊢
  by_cases hc : c.isCancelled = true
  · simp [hc] at h
  · rw [if_neg hc] at h ⊢
    cases ht : c.cancelAt with
    | none => rfl
    | some t =>
        by_cases hle : t ≤ c.now + min longest ms
        · simp [ht, hle] at h
        · simp [hle, advance]

end Clock

end ChannelAdapter
