import ChannelAdapter.Monitor
import ChannelAdapter.Proofs.Watch
/-!
What a monitor does. Its run is watched in a world where fetching, emitting and sleeping may change
anything, the moment of a cancellation included; `Runs` says which acts such a run may consist of,
and `path_acts` that they lead from its first world to its last.
-/

namespace ChannelAdapter.Monitor

inductive Act (κ ε : Type)
  | checked (cancelled : Bool)
  | fetched (cursor : κ) (answer : Except ErrorChain (Batch κ ε))
  | emitted (event : ε) (answer : Except Error Unit)
  | slept (ms : Nat)

variable {κ ε ω : Type}

/-! What a monitor may do. -/

/-- Events are emitted up to the first that is refused. -/
inductive Emits (count : Nat) : List ε → List (Act κ ε) → Except Error Nat → Prop
  | all (events : List ε) :
      Emits count events (events.map (.emitted · (.ok ()))) (.ok (count + events.length))
  | refused (front back : List ε) (event : ε) (e : Error) :
      Emits count (front ++ event :: back)
        (front.map (.emitted · (.ok ())) ++ [.emitted event (.error e)]) (.error e)

inductive Polls [Cursor κ] (c : Config) (p : Progress κ) : List (Act κ ε) → Outcome κ → Prop
  | done {batch : Batch κ ε} {acts : List (Act κ ε)} {emitted : Nat}
      (hemits : Emits p.emitted batch.events acts (.ok emitted)) :
      Polls c p (.fetched p.cursor (.ok batch) :: (acts ++ [.slept c.interval]))
        (.running ⟨Cursor.next p.cursor batch.cursor, p.polls + 1, emitted, 0⟩)
  | refused {batch : Batch κ ε} {acts : List (Act κ ε)} {e : Error}
      (hemits : Emits p.emitted batch.events acts (.error e)) :
      Polls c p (.fetched p.cursor (.ok batch) :: acts) (.failed e)
  | failed {chain : ErrorChain} (hretry : c.retry.isExhausted (countFailure p.failures) = false) :
      Polls c p [.fetched p.cursor (.error chain), .slept c.pause]
        (.running { p with polls := p.polls + 1, failures := countFailure p.failures })
  | exhausted {chain : ErrorChain}
      (hretry : c.retry.isExhausted (countFailure p.failures) = true) :
      Polls c p [.fetched p.cursor (.error chain)]
        (.failed (.tooManyErrors (countFailure p.failures) chain.message))

inductive Runs [Cursor κ] (c : Config) : Nat → Progress κ → List (Act κ ε) → Outcome κ → Prop
  | stopped {budget : Nat} {p : Progress κ} : Runs c budget p [.checked true] (.stopped p)
  | spent {p : Progress κ} : Runs c 0 p [.checked false] (.running p)
  | ended {budget : Nat} {p : Progress κ} {acts : List (Act κ ε)} {e : Error}
      (hpoll : Polls c p acts (.failed e)) :
      Runs c (budget + 1) p (.checked false :: acts) (.failed e)
  | polled {budget : Nat} {p q : Progress κ} {acts more : List (Act κ ε)} {outcome : Outcome κ}
      (hpoll : Polls c p acts (.running q)) (hrest : Runs c budget q more outcome) :
      Runs c (budget + 1) p (.checked false :: (acts ++ more)) outcome

inductive Ends (c : Config) : List (Act κ ε) → Outcome κ → Prop
  | stopped (acts : List (Act κ ε)) {p : Progress κ} : Ends c (acts ++ [.checked true]) (.stopped p)
  | spent (acts : List (Act κ ε)) {p : Progress κ} : Ends c (acts ++ [.checked false]) (.running p)
  | refused (acts : List (Act κ ε)) {event : ε} {e : Error} :
      Ends c (acts ++ [.emitted event (.error e)]) (.failed e)
  | exhausted (acts : List (Act κ ε)) {cursor : κ} {chain : ErrorChain} {failures : Nat}
      (hretry : c.retry.isExhausted failures = true) :
      Ends c (acts ++ [.fetched cursor (.error chain)])
        (.failed (.tooManyErrors failures chain.message))

section
variable {count emitted : Nat} {events : List ε} {acts more : List (Act κ ε)} {e : Error}
  {c : Config} {outcome : Outcome κ}

theorem Emits.eq_of_ok (h : Emits count events acts (.ok emitted)) :
    acts = events.map (.emitted · (.ok ())) ∧ emitted = count + events.length := by
  cases h with
  | all => exact ⟨rfl, rfl⟩

theorem Emits.exists_of_error (h : Emits count events acts (.error e)) :
    ∃ front event back, events = front ++ event :: back ∧
      acts = front.map (.emitted · (.ok ())) ++ [.emitted event (.error e)] := by
  cases h with
  | refused front back event => exact ⟨front, event, back, rfl, rfl⟩

theorem Emits.slept_not_mem {answer : Except Error Nat} (h : Emits count events acts answer)
    (ms : Nat) : .slept ms ∉ acts := by
  cases h with
  | all => simp
  | refused => simp

theorem eq_nil_of_append_cons_eq {α : Type} {front back l : List α} {a b : α}
    (h : front ++ a :: back = l ++ [b]) (ha : a ∉ l) : back = [] := by
  rcases List.append_eq_append_iff.mp h with ⟨middle, rfl, hback⟩ | ⟨middle, -, hback⟩
  · cases middle with
    | nil =>
        cases hback
        rfl
    | cons =>
        cases hback
        exact absurd (List.mem_append_right front List.mem_cons_self) ha
  · have hlength := congrArg List.length hback
    rw [List.length_append, List.length_singleton, List.length_cons] at hlength
    exact List.length_eq_zero_iff.mp (by omega)

theorem Polls.of_slept [Cursor κ] {p : Progress κ} {front back : List (Act κ ε)} {ms : Nat}
    (h : Polls c p (front ++ .slept ms :: back) outcome) :
    back = [] ∧ ∃ q, outcome = .running q := by
  generalize hacts : front ++ .slept ms :: back = acts at h
  have hmem : .slept ms ∈ acts := by rw [← hacts]; simp
  cases h with
  | @done batch emits emitted hemits =>
      rw [← List.cons_append] at hacts
      refine ⟨eq_nil_of_append_cons_eq hacts ?_, _, rfl⟩
      intro hmem
      cases hmem with
      | tail _ hmem => exact hemits.slept_not_mem ms hmem
  | refused hemits =>
      cases hmem with
      | tail _ hmem => exact absurd hmem (hemits.slept_not_mem ms)
  | @failed chain =>
      have hlast : front ++ .slept ms :: back =
          [.fetched p.cursor (.error chain)] ++ [.slept c.pause] := hacts
      exact ⟨eq_nil_of_append_cons_eq hlast (by simp), _, rfl⟩
  | exhausted => simp at hmem

theorem Ends.append (acts : List (Act κ ε)) (h : Ends c more outcome) :
    Ends c (acts ++ more) outcome := by
  cases h <;> rw [← List.append_assoc]
  case stopped => exact .stopped _
  case spent => exact .spent _
  case refused => exact .refused _
  case exhausted hretry => exact .exhausted _ hretry

theorem Polls.ends [Cursor κ] {p : Progress κ} (h : Polls c p acts (.failed e)) :
    Ends c acts (.failed e) := by
  cases h with
  | refused hemits =>
      obtain ⟨front, event, back, -, rfl⟩ := hemits.exists_of_error
      rw [← List.cons_append]
      exact .refused _
  | exhausted hretry => exact .exhausted [] hretry

theorem Runs.ends [Cursor κ] {budget : Nat} {p : Progress κ} (h : Runs c budget p acts outcome) :
    Ends c acts outcome := by
  induction h with
  | stopped => exact .stopped []
  | spent => exact .spent []
  | ended hpoll => exact hpoll.ends.append [.checked false]
  | @polled budget p q acts more outcome _ _ ih =>
      rw [← List.cons_append]
      exact ih.append _

theorem Runs.of_slept [Cursor κ] {budget : Nat} {p : Progress κ} {front back : List (Act κ ε)}
    {ms : Nat} (h : Runs c budget p (front ++ .slept ms :: back) outcome) :
    ∃ budget' q, Runs c budget' q back outcome := by
  generalize hacts : front ++ .slept ms :: back = acts at h
  induction h generalizing front with
  | stopped => simp [List.append_eq_singleton_iff] at hacts
  | spent => simp [List.append_eq_singleton_iff] at hacts
  | @ended budget p acts e hpoll =>
      cases front with
      | nil => cases hacts
      | cons act front =>
          obtain ⟨-, rfl⟩ := List.cons.inj hacts
          obtain ⟨-, q, hq⟩ := hpoll.of_slept
          cases hq
  | @polled budget p q acts more outcome hpoll hrest ih =>
      cases front with
      | nil => cases hacts
      | cons act front =>
          obtain ⟨-, hacts⟩ := List.cons.inj hacts
          -- the sleep is the last act of this poll, or an act of the rest
          rcases List.append_eq_append_iff.mp hacts with
            ⟨middle, rfl, hmiddle⟩ | ⟨middle, rfl, hmiddle⟩
          · cases middle with
            | nil =>
                have hmore : [] ++ .slept ms :: back = more := hmiddle
                exact ih hmore
            | cons act' middle =>
                obtain ⟨rfl, rfl⟩ := List.cons.inj hmiddle
                obtain ⟨rfl, -⟩ := hpoll.of_slept
                exact ⟨budget, q, hrest⟩
          · exact ih hmiddle.symm

end

/-! What a monitor does. -/

instance [MonadClock (StateM ω)] : MonadClock (Watched (Act κ ε) ω) where
  isCancelled := .noting .checked MonadClock.isCancelled
  sleep ms := .noting (fun _ => .slept ms) (MonadClock.sleep ms)

variable (fetch : κ → StateM ω (Except ErrorChain (Batch κ ε)))
  (emit : ε → StateM ω (Except Error Unit))

def watchedFetch (cursor : κ) : Watched (Act κ ε) ω (Except ErrorChain (Batch κ ε)) :=
  .noting (.fetched cursor) (fetch cursor)

def watchedEmit (event : ε) : Watched (Act κ ε) ω (Except Error Unit) :=
  .noting (.emitted event) (emit event)

variable [MonadClock (StateM ω)]

/-- Carries out an act, whatever has been noted of it. -/
def Act.perform : Act κ ε → StateM ω (Act κ ε)
  | .checked _ => Act.checked <$> MonadClock.isCancelled
  | .fetched cursor _ => Act.fetched cursor <$> fetch cursor
  | .emitted event _ => Act.emitted event <$> emit event
  | .slept ms => (fun _ => .slept ms) <$> MonadClock.sleep ms

theorem shows_emitAll (count : Nat) (events : List ε) (w : ω) :
    Watched.Shows (emitAll (watchedEmit (κ := κ) emit) count events) (emitAll emit count events) w
      fun answer acts w' =>
        Emits count events acts answer ∧ Watched.Path (Act.perform fetch emit) w acts w' := by
  induction events generalizing count w with
  | nil => exact .pure ⟨.all [], .nil w⟩
  | cons event events ih =>
      rw [emitAll, emitAll]
      apply Watched.Shows.noting_bind
      intro answer w' hanswer
      cases answer with
      | error e =>
          apply Watched.Shows.pure
          exact ⟨.refused [] events event e, .noting (Act.emitted event) rfl hanswer (.nil w')⟩
      | ok _ =>
          apply (ih (count + 1) w').mono
          rintro answer acts w'' ⟨hemits, hpath⟩
          refine ⟨?_, .noting (Act.emitted event) rfl hanswer hpath⟩
          cases hemits with
          | all =>
              have hcount : count + 1 + events.length = count + (event :: events).length := by
                rw [List.length_cons, Nat.add_right_comm, Nat.add_assoc]
              rw [hcount]
              exact .all (event :: events)
          | refused front back event' e => exact .refused (event :: front) back event' e

variable [Cursor κ] (c : Config)

theorem shows_poll (p : Progress κ) (w : ω) :
    Watched.Shows (poll c (watchedFetch fetch) (watchedEmit emit) p) (poll c fetch emit p) w
      fun outcome acts w' =>
        Polls c p acts outcome ∧ Watched.Path (Act.perform fetch emit) w acts w' := by
  rw [poll, poll]
  apply Watched.Shows.noting_bind
  intro answer w' hanswer
  cases answer with
  | ok batch =>
      apply (shows_emitAll fetch emit p.emitted batch.events w').bind
      rintro answer acts w'' ⟨hemits, hpath⟩
      cases answer with
      | error e =>
          apply Watched.Shows.pure
          rw [List.append_nil]
          exact ⟨.refused hemits, .noting (Act.fetched p.cursor) rfl hanswer hpath⟩
      | ok emitted =>
          apply Watched.Shows.noting_bind
          intro _ v hsleep
          have hslept : Watched.Path (Act.perform fetch emit) w'' [.slept c.interval] v :=
            .noting (fun _ => Act.slept c.interval) rfl hsleep (.nil v)
          exact .pure ⟨.done hemits,
            .noting (Act.fetched p.cursor) rfl hanswer (hpath.append hslept)⟩
  | error chain =>
      dsimp only
      split
      · next hretry =>
          exact .pure ⟨.exhausted hretry, .noting (Act.fetched p.cursor) rfl hanswer (.nil w')⟩
      · next hretry =>
          apply Watched.Shows.noting_bind
          intro _ w'' hsleep
          have hslept : Watched.Path (Act.perform fetch emit) w' [.slept c.pause] w'' :=
            .noting (fun _ => Act.slept c.pause) rfl hsleep (.nil w'')
          exact .pure ⟨.failed (Bool.not_eq_true _ ▸ hretry),
            .noting (Act.fetched p.cursor) rfl hanswer hslept⟩

theorem shows_run (budget : Nat) (p : Progress κ) (w : ω) :
    Watched.Shows (run c (watchedFetch fetch) (watchedEmit emit) budget p)
      (run c fetch emit budget p) w fun outcome acts w' =>
        Runs c budget p acts outcome ∧ Watched.Path (Act.perform fetch emit) w acts w' := by
  induction budget generalizing p w with
  | zero =>
      rw [run, run]
      apply Watched.Shows.noting_bind
      intro cancelled w' hcheck
      cases cancelled with
      | true => exact .pure ⟨.stopped, .noting Act.checked rfl hcheck (.nil w')⟩
      | false => exact .pure ⟨.spent, .noting Act.checked rfl hcheck (.nil w')⟩
  | succ budget ih =>
      rw [run, run]
      apply Watched.Shows.noting_bind
      intro cancelled w' hcheck
      cases cancelled with
      | true => exact .pure ⟨.stopped, .noting Act.checked rfl hcheck (.nil w')⟩
      | false =>
          apply (shows_poll fetch emit c p w').bind
          rintro outcome acts w'' ⟨hpoll, hpath⟩
          cases outcome with
          | running q =>
              apply (ih q w'').mono
              rintro outcome more v ⟨hrest, hmore⟩
              exact ⟨.polled hpoll hrest, .noting Act.checked rfl hcheck (hpath.append hmore)⟩
          | failed e =>
              apply Watched.Shows.pure
              rw [List.append_nil]
              exact ⟨.ended hpoll, .noting Act.checked rfl hcheck hpath⟩
          | stopped q => cases hpoll

def acts (budget : Nat) (p : Progress κ) (w : ω) : List (Act κ ε) :=
  (((run c (watchedFetch fetch) (watchedEmit emit) budget p).run []).run w).1.2

theorem run_watched (budget : Nat) (p : Progress κ) (w : ω) :
    ((run c (watchedFetch fetch) (watchedEmit emit) budget p).run []).run w =
      ((((run c fetch emit budget p).run w).1, acts fetch emit c budget p w),
        ((run c fetch emit budget p).run w).2) :=
  (shows_run fetch emit c budget p w).run_watched

theorem runs_acts (budget : Nat) (p : Progress κ) (w : ω) :
    Runs c budget p (acts fetch emit c budget p w) ((run c fetch emit budget p).run w).1 :=
  (shows_run fetch emit c budget p w).run_nil.1

theorem path_acts (budget : Nat) (p : Progress κ) (w : ω) :
    Watched.Path (Act.perform fetch emit) w (acts fetch emit c budget p w)
      ((run c fetch emit budget p).run w).2 :=
  (shows_run fetch emit c budget p w).run_nil.2

end ChannelAdapter.Monitor
