import ChannelAdapter.Clock
import ChannelAdapter.Error
import ChannelAdapter.Monitor.Cursor
/-!
Monitors: they fetch again and again what is new since a cursor and emit it. A failed fetch is tried
again after a pause, possibly up to a number of failures in a row. Times are in milliseconds.
-/

namespace ChannelAdapter

inductive RetryPolicy
  | unbounded
  | atMost (n : Nat)
  deriving DecidableEq, Repr

namespace RetryPolicy

def ofMaxErrors : Nat → RetryPolicy
  | 0 => .unbounded
  | n => .atMost n

def isExhausted : RetryPolicy → Nat → Bool
  | .unbounded, _ => false
  | .atMost n, failures => n ≤ failures

end RetryPolicy

namespace Monitor

structure Config where
  interval : Nat
  backoff : Option Nat
  retry : RetryPolicy
  deriving DecidableEq, Repr

namespace Config

def pause (c : Config) : Nat :=
  (c.backoff.filter (0 < ·)).getD c.interval

theorem pause_pos {c : Config} (h : 0 < c.interval) : 0 < c.pause := by
  unfold pause
  cases c.backoff with
  | none => exact h
  | some n => by_cases hn : 0 < n <;> simp [Option.filter, hn, h]

def check (c : Config) : Except Error Unit :=
  if c.interval = 0 then .error (.invalidInterval "interval must be greater than zero") else .ok ()

end Config

structure Batch (κ ε : Type) where
  events : List ε
  cursor : Option κ

structure Progress (κ : Type) where
  cursor : κ
  polls : Nat
  emitted : Nat
  /-- Failures since the last success. -/
  failures : Nat
  deriving DecidableEq, Repr

def Progress.start {κ : Type} (cursor : κ) : Progress κ :=
  ⟨cursor, 0, 0, 0⟩

/-- One failure more. The count has 32 bits and stays at its last value. -/
def countFailure (failures : Nat) : Nat :=
  min (failures + 1) 0xFFFFFFFF

inductive Outcome (κ : Type)
  | stopped (p : Progress κ)
  | failed (e : Error)
  /-- It would go on. -/
  | running (p : Progress κ)

inductive State
  | running
  | backingOff
  | stopped
  deriving DecidableEq, Repr

structure Report (κ : Type) where
  /-- Where another run can go on. -/
  cursor : κ
  polls : Nat
  emitted : Nat
  state : State
  deriving DecidableEq, Repr

def Outcome.report? {κ : Type} : Outcome κ → Option (Report κ)
  | .stopped p => some ⟨p.cursor, p.polls, p.emitted, .stopped⟩
  | .failed _ | .running _ => none

variable {κ ε : Type} {m : Type → Type} [Monad m]

def emitAll (emit : ε → m (Except Error Unit)) (count : Nat) : List ε → m (Except Error Nat)
  | [] => return .ok count
  | e :: es => do
      match ← emit e with
      | .ok () => emitAll emit (count + 1) es
      | .error e => return .error e

variable [Cursor κ] [MonadClock m]

def poll (c : Config) (fetch : κ → m (Except ErrorChain (Batch κ ε)))
    (emit : ε → m (Except Error Unit)) (p : Progress κ) : m (Outcome κ) := do
  match ← fetch p.cursor with
  | .ok batch =>
      match ← emitAll emit p.emitted batch.events with
      | .error e => return .failed e
      | .ok emitted => do
          MonadClock.sleep c.interval
          return .running ⟨Cursor.next p.cursor batch.cursor, p.polls + 1, emitted, 0⟩
  | .error chain =>
      let failures := countFailure p.failures
      if c.retry.isExhausted failures then return .failed (.tooManyErrors failures chain.message)
      else
        MonadClock.sleep c.pause
        return .running { p with polls := p.polls + 1, failures }

/-- Polls until it is cancelled or fails, but not more often than `budget` says. -/
def run (c : Config) (fetch : κ → m (Except ErrorChain (Batch κ ε)))
    (emit : ε → m (Except Error Unit)) (budget : Nat) (p : Progress κ) : m (Outcome κ) := do
  if ← MonadClock.isCancelled then return .stopped p
  else
    match budget with
    | 0 => return .running p
    | budget + 1 =>
        match ← poll c fetch emit p with
        | .running p => run c fetch emit budget p
        | outcome => return outcome

end Monitor

end ChannelAdapter
