import ChannelAdapter.Proofs.Monitor.Run
import ChannelAdapter.World
/-!
How the cursor of a monitor moves. Each fetch is given the last cursor that a fetch before it has
brought; failures, and batches whose cursor is missing or unset, leave it where it is.
-/

namespace ChannelAdapter.Monitor

variable {κ ε ω : Type}

def Act.fetch? : Act κ ε → Option (κ × Except ErrorChain (Batch κ ε))
  | .fetched cursor answer => some (cursor, answer)
  | _ => none

def fetches (acts : List (Act κ ε)) : List (κ × Except ErrorChain (Batch κ ε)) :=
  acts.filterMap Act.fetch?

section
variable (acts more : List (Act κ ε))

@[simp] theorem fetches_nil : fetches ([] : List (Act κ ε)) = [] := rfl

@[simp] theorem fetches_checked (cancelled : Bool) :
    fetches (.checked cancelled :: acts) = fetches acts := rfl

@[simp] theorem fetches_fetched (cursor : κ) (answer : Except ErrorChain (Batch κ ε)) :
    fetches (.fetched cursor answer :: acts) = (cursor, answer) :: fetches acts := rfl

@[simp] theorem fetches_emitted (event : ε) (answer : Except Error Unit) :
    fetches (.emitted event answer :: acts) = fetches acts := rfl

@[simp] theorem fetches_slept (ms : Nat) : fetches (.slept ms :: acts) = fetches acts := rfl

@[simp] theorem fetches_append : fetches (acts ++ more) = fetches acts ++ fetches more :=
  List.filterMap_append

end

theorem Emits.fetches_eq_nil {count : Nat} {events : List ε} {acts : List (Act κ ε)}
    {answer : Except Error Nat} (h : Emits count events acts answer) : fetches acts = [] := by
  have hmap (events : List ε) :
      fetches (events.map fun event => (Act.emitted event (.ok ()) : Act κ ε)) = [] := by
    induction events with
    | nil => rfl
    | cons event events ih => exact ih
  cases h with
  | all => exact hmap events
  | refused front back event e => simp [hmap]

variable [Cursor κ]

def brought? : Except ErrorChain (Batch κ ε) → Option κ
  | .ok batch => batch.cursor.filter (!Cursor.isUnset ·)
  | .error _ => none

/-- The last cursor that some answers brought, or else the first one of all. -/
def cursorAfter (initial : κ) (answers : List (Except ErrorChain (Batch κ ε))) : κ :=
  (answers.filterMap brought?).getLast?.getD initial

theorem cursorAfter_cons (initial : κ) (answer : Except ErrorChain (Batch κ ε))
    (answers : List (Except ErrorChain (Batch κ ε))) :
    cursorAfter initial (answer :: answers) = cursorAfter (cursorAfter initial [answer]) answers := by
  unfold cursorAfter
  cases hbrought : brought? answer with
  | none => simp [hbrought]
  | some cursor =>
      rw [List.filterMap_cons_some hbrought, List.filterMap_cons_some hbrought, List.getLast?_cons]
      rfl

theorem cursorAfter_append (initial : κ) (answers more : List (Except ErrorChain (Batch κ ε))) :
    cursorAfter initial (answers ++ more) = cursorAfter (cursorAfter initial answers) more := by
  induction answers generalizing initial with
  | nil => rfl
  | cons answer answers ih =>
      rw [List.cons_append, cursorAfter_cons, ih, ← cursorAfter_cons]

theorem next_eq_cursorAfter (current : κ) (batch : Batch κ ε) :
    Cursor.next current batch.cursor = cursorAfter current [.ok batch] := by
  unfold cursorAfter
  cases hcursor : batch.cursor with
  | none => simp [Cursor.next, brought?, hcursor]
  | some cursor =>
      cases hunset : Cursor.isUnset cursor <;>
        simp [Cursor.next, brought?, hcursor, hunset, Option.filter]

/-- Each call is given the cursor that the answers before it have left. -/
def Follows (initial : κ) (calls : List (κ × Except ErrorChain (Batch κ ε))) : Prop :=
  ∀ front cursor answer back, calls = front ++ (cursor, answer) :: back →
    cursor = cursorAfter initial (front.map Prod.snd)

theorem follows_nil (initial : κ) :
    Follows initial ([] : List (κ × Except ErrorChain (Batch κ ε))) := by
  intro front cursor answer back hcalls
  cases front <;> cases hcalls

theorem Follows.cons {initial : κ} {answer : Except ErrorChain (Batch κ ε)}
    {calls : List (κ × Except ErrorChain (Batch κ ε))}
    (h : Follows (cursorAfter initial [answer]) calls) :
    Follows initial ((initial, answer) :: calls) := by
  intro front cursor answer' back hcalls
  cases front with
  | nil =>
      cases hcalls
      rfl
  | cons call front =>
      cases hcalls
      rw [List.map_cons, cursorAfter_cons]
      exact h front cursor answer' back rfl

theorem Follows.head {initial cursor : κ} {answer : Except ErrorChain (Batch κ ε)}
    {calls : List (κ × Except ErrorChain (Batch κ ε))}
    (h : Follows initial ((cursor, answer) :: calls)) : cursor = initial :=
  h [] cursor answer calls rfl

theorem Follows.tail {initial cursor : κ} {answer : Except ErrorChain (Batch κ ε)}
    {calls : List (κ × Except ErrorChain (Batch κ ε))}
    (h : Follows initial ((cursor, answer) :: calls)) :
    Follows (cursorAfter initial [answer]) calls := by
  rintro front cursor' answer' back rfl
  rw [← cursorAfter_cons]
  exact h ((cursor, answer) :: front) cursor' answer' back rfl

/-! One poll, and a run. -/

section
variable {c : Config} {p : Progress κ} {acts : List (Act κ ε)} {outcome : Outcome κ}

theorem Polls.fetches_eq (h : Polls c p acts outcome) :
    ∃ answer, fetches acts = [(p.cursor, answer)] ∧
      ∀ q, outcome = .running q → q.cursor = cursorAfter p.cursor [answer] := by
  cases h with
  | @done batch emits emitted hemits =>
      refine ⟨.ok batch, ?_, ?_⟩
      · simp [hemits.fetches_eq_nil]
      · intro q hq
        cases hq
        exact next_eq_cursorAfter p.cursor batch
  | @refused batch emits e hemits =>
      refine ⟨.ok batch, ?_, ?_⟩
      · rw [fetches_fetched, hemits.fetches_eq_nil]
      · intro q hq
        cases hq
  | @failed chain hretry =>
      refine ⟨.error chain, rfl, ?_⟩
      intro q hq
      cases hq
      rfl
  | @exhausted chain hretry =>
      refine ⟨.error chain, rfl, ?_⟩
      intro q hq
      cases hq

theorem Runs.follows {budget : Nat} (h : Runs c budget p acts outcome) :
    Follows p.cursor (fetches acts) ∧
      ∀ q, outcome = .stopped q → q.cursor = cursorAfter p.cursor ((fetches acts).map Prod.snd) := by
  induction h with
  | stopped =>
      refine ⟨follows_nil _, ?_⟩
      intro q hq
      cases hq
      rfl
  | spent =>
      refine ⟨follows_nil _, ?_⟩
      intro q hq
      cases hq
  | @ended budget p acts e hpoll =>
      obtain ⟨answer, hfetches, -⟩ := hpoll.fetches_eq
      refine ⟨?_, ?_⟩
      · rw [fetches_checked, hfetches]
        exact (follows_nil _).cons
      · intro q hq
        cases hq
  | @polled budget p q acts more outcome hpoll _ ih =>
      obtain ⟨answer, hfetches, hcursor⟩ := hpoll.fetches_eq
      -- the rest of the run begins at the cursor that this poll has left
      rw [hcursor q rfl] at ih
      rw [fetches_checked, fetches_append, hfetches, List.singleton_append]
      refine ⟨ih.1.cons, ?_⟩
      intro q' hq'
      rw [List.map_cons, cursorAfter_cons]
      exact ih.2 q' hq'

end

/-- Each fetch is called with the last cursor that a fetch before it brought, and so is the cursor
that is reported at the end. What is fetched and when the run is cancelled is up to the world. -/
theorem cursor_of_fetches [MonadClock (StateM ω)] (c : Config)
    (fetch : κ → StateM ω (Except ErrorChain (Batch κ ε))) (emit : ε → StateM ω (Except Error Unit))
    (budget : Nat) (initial : κ) (w : ω) :
    (∀ front cursor answer back,
      fetches (acts fetch emit c budget (.start initial) w) =
        front ++ (cursor, answer) :: back →
      cursor = cursorAfter initial (front.map Prod.snd)) ∧
    ∀ p, ((run c fetch emit budget (.start initial)).run w).1 = .stopped p →
      p.cursor = cursorAfter initial
        ((fetches (acts fetch emit c budget (.start initial) w)).map Prod.snd) :=
  (runs_acts fetch emit c budget (.start initial) w).follows

/-- A source of events that brings an unset cursor and fails once, before it brings another cursor. -/
def flaky (_ : Nat) : World.Sim (Except ErrorChain (Batch Nat String)) := do
  match (← get).clock.now with
  | 0 => return .ok ⟨["a", "b"], some 12⟩
  | 1000 => return .ok ⟨[], some 0⟩
  | 2000 => return .error (.ofText "down")
  | _ => return .ok ⟨["c"], some 13⟩

theorem cursor_of_fetches_flaky :
    ((run ⟨1000, none, .unbounded⟩ flaky (fun _ => return .ok ()) 9 (.start 10)).run
        (World.start ⟨[]⟩ (some 3500))).1 = .stopped ⟨13, 4, 3, 0⟩ ∧
      ∃ calls, fetches (acts flaky (fun _ => return .ok ()) ⟨1000, none, .unbounded⟩ 9 (.start 10)
          (World.start ⟨[]⟩ (some 3500))) = calls ∧
        calls.map Prod.fst = [10, 12, 12, 12] ∧ 13 = cursorAfter 10 (calls.map Prod.snd) := by
  obtain ⟨-, hreport⟩ := cursor_of_fetches ⟨1000, none, .unbounded⟩ flaky
    (fun _ => return .ok ()) 9 10 (World.start ⟨[]⟩ (some 3500))
  exact ⟨rfl, _, rfl, by decide +kernel, hreport ⟨13, 4, 3, 0⟩ rfl⟩

end ChannelAdapter.Monitor
