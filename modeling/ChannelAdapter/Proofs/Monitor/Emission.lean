import ChannelAdapter.Proofs.Monitor.Cursor
/-!
What a monitor emits. The events of its batches are emitted in order, each once. Only an event that
the sink refuses keeps others back, and it ends the run.
-/

namespace ChannelAdapter.Monitor

variable {κ ε ω : Type}

def Act.emission? : Act κ ε → Option (ε × Except Error Unit)
  | .emitted event answer => some (event, answer)
  | _ => none

def emissions (acts : List (Act κ ε)) : List (ε × Except Error Unit) :=
  acts.filterMap Act.emission?

def eventsOf : Except ErrorChain (Batch κ ε) → List ε
  | .ok batch => batch.events
  | .error _ => []

def arrivals (acts : List (Act κ ε)) : List ε :=
  (fetches acts).flatMap fun call => eventsOf call.2

section
variable (acts more : List (Act κ ε))

@[simp] theorem emissions_nil : emissions ([] : List (Act κ ε)) = [] := rfl

@[simp] theorem emissions_checked (cancelled : Bool) :
    emissions (.checked cancelled :: acts) = emissions acts := rfl

@[simp] theorem emissions_fetched (cursor : κ) (answer : Except ErrorChain (Batch κ ε)) :
    emissions (.fetched cursor answer :: acts) = emissions acts := rfl

@[simp] theorem emissions_emitted (event : ε) (answer : Except Error Unit) :
    emissions (.emitted event answer :: acts) = (event, answer) :: emissions acts := rfl

@[simp] theorem emissions_slept (ms : Nat) : emissions (.slept ms :: acts) = emissions acts := rfl

@[simp] theorem emissions_append : emissions (acts ++ more) = emissions acts ++ emissions more :=
  List.filterMap_append

@[simp] theorem arrivals_nil : arrivals ([] : List (Act κ ε)) = [] := rfl

@[simp] theorem arrivals_checked (cancelled : Bool) :
    arrivals (.checked cancelled :: acts) = arrivals acts := rfl

@[simp] theorem arrivals_fetched (cursor : κ) (answer : Except ErrorChain (Batch κ ε)) :
    arrivals (.fetched cursor answer :: acts) = eventsOf answer ++ arrivals acts := rfl

@[simp] theorem arrivals_emitted (event : ε) (answer : Except Error Unit) :
    arrivals (.emitted event answer :: acts) = arrivals acts := rfl

@[simp] theorem arrivals_slept (ms : Nat) : arrivals (.slept ms :: acts) = arrivals acts := rfl

@[simp] theorem arrivals_append : arrivals (acts ++ more) = arrivals acts ++ arrivals more := by
  rw [arrivals, fetches_append, List.flatMap_append]
  rfl

@[simp] theorem emissions_map_emitted (events : List ε) :
    emissions (events.map (.emitted · (.ok ())) : List (Act κ ε)) = events.map (·, .ok ()) := by
  induction events with
  | nil => rfl
  | cons event events ih => rw [List.map_cons, emissions_emitted, ih, List.map_cons]

end

theorem arrivals_map_emitted (events : List ε) :
    arrivals (events.map (.emitted · (.ok ())) : List (Act κ ε)) = [] := by
  have hemits : Emits 0 events (events.map (.emitted · (.ok ())) : List (Act κ ε)) _ := .all events
  rw [arrivals, hemits.fetches_eq_nil, List.flatMap_nil]

/-- All events that arrive are emitted, or those up to one that is refused and ends it all. -/
inductive Delivers : List (Act κ ε) → Outcome κ → Prop
  | all {acts : List (Act κ ε)} {outcome : Outcome κ}
      (hemissions : emissions acts = (arrivals acts).map (·, .ok ())) : Delivers acts outcome
  | refused {acts : List (Act κ ε)} {event : ε} {e : Error} (taken : List ε)
      (hemissions : emissions acts = taken.map (·, .ok ()))
      (harrivals : taken ++ [event] <+: arrivals acts) :
      Delivers (acts ++ [.emitted event (.error e)]) (.failed e)

theorem Delivers.append {acts more : List (Act κ ε)} {outcome : Outcome κ}
    (hacts : emissions acts = (arrivals acts).map (·, .ok ())) (hmore : Delivers more outcome) :
    Delivers (acts ++ more) outcome := by
  cases hmore with
  | all hmore =>
      apply Delivers.all
      rw [emissions_append, hacts, hmore, arrivals_append, List.map_append]
  | @refused more event e taken hmore harrivals =>
      rw [← List.append_assoc]
      apply Delivers.refused (arrivals acts ++ taken)
      · rw [emissions_append, hacts, hmore, List.map_append]
      · rw [arrivals_append, List.append_assoc]
        exact (List.prefix_append_right_inj _).mpr harrivals

theorem Delivers.emissions_eq {acts : List (Act κ ε)} {outcome : Outcome κ}
    (h : Delivers acts outcome) (htaken : ∀ event e, .emitted event (.error e) ∉ acts) :
    emissions acts = (arrivals acts).map (·, .ok ()) := by
  cases h with
  | all hemissions => exact hemissions
  | @refused acts event e =>
      exact absurd (List.mem_append_right acts (List.mem_singleton_self _)) (htaken event e)

theorem map_fst_taken (taken : List ε) :
    (taken.map fun event => (event, (.ok () : Except Error Unit))).map Prod.fst = taken := by
  rw [List.map_map]
  exact List.map_id taken

theorem getElem?_taken_ne (taken : List ε) (j : Nat) (event : ε) (e : Error) :
    (taken.map fun event => (event, (.ok () : Except Error Unit)))[j]? ≠
      some (event, .error e) := by
  intro hget
  rw [List.getElem?_map, Option.map_eq_some_iff] at hget
  obtain ⟨_, -, hpair⟩ := hget
  cases hpair

theorem Delivers.of_refused {acts : List (Act κ ε)} {outcome : Outcome κ}
    (h : Delivers acts outcome) {j : Nat} {event : ε} {e : Error}
    (hj : (emissions acts)[j]? = some (event, .error e)) :
    outcome = .failed e ∧ (emissions acts).length = j + 1 ∧
      (emissions acts).map Prod.fst = (arrivals acts).take (j + 1) ∧
      acts.getLast? = some (.emitted event (.error e)) := by
  cases h with
  | all hemissions => exact absurd (hemissions ▸ hj) (getElem?_taken_ne _ j event e)
  | @refused acts event' e' taken hemissions harrivals =>
      rw [emissions_append, hemissions, emissions_emitted, emissions_nil] at hj ⊢
      rcases Nat.lt_trichotomy j taken.length with hlt | rfl | hgt
      · rw [List.getElem?_append_left (by rwa [List.length_map])] at hj
        exact absurd hj (getElem?_taken_ne taken j event e)
      · rw [List.getElem?_append_right (by simp), List.length_map, Nat.sub_self] at hj
        cases hj
        have htake : taken ++ [event] = (arrivals acts).take (taken.length + 1) := by
          simpa using List.prefix_iff_eq_take.mp harrivals
        refine ⟨rfl, by simp, ?_, by simp⟩
        rw [arrivals_append, arrivals_emitted, arrivals_nil, List.append_nil, ← htake,
          List.map_append, map_fst_taken]
        rfl
      · rw [List.getElem?_eq_none (by simpa using Nat.succ_le_of_lt hgt)] at hj
        cases hj

theorem Delivers.last_of_mem {acts : List (Act κ ε)} {outcome : Outcome κ}
    (h : Delivers acts outcome) {event : ε} {e : Error}
    (hmem : .emitted event (.error e) ∈ acts) :
    acts.getLast? = some (.emitted event (.error e)) := by
  have hemission : (event, .error e) ∈ emissions acts := List.mem_filterMap.mpr ⟨_, hmem, rfl⟩
  obtain ⟨j, hj⟩ := List.getElem?_of_mem hemission
  exact (h.of_refused hj).2.2.2

theorem Delivers.not_mem_of_fetched {acts : List (Act κ ε)} {cursor : κ}
    {answer : Except ErrorChain (Batch κ ε)} {outcome : Outcome κ}
    (h : Delivers (acts ++ [.fetched cursor answer]) outcome) (event : ε) (e : Error) :
    .emitted event (.error e) ∉ acts ++ [.fetched cursor answer] := by
  intro hmem
  have hlast := h.last_of_mem hmem
  rw [List.getLast?_concat] at hlast
  cases hlast

/-! One poll, and a run. -/

section
variable [Cursor κ] {c : Config} {p q : Progress κ} {acts : List (Act κ ε)} {outcome : Outcome κ}

theorem Polls.delivers (h : Polls c p acts outcome) : Delivers acts outcome := by
  cases h with
  | @done batch emits emitted hemits =>
      obtain ⟨rfl, -⟩ := hemits.eq_of_ok
      apply Delivers.all
      simp [arrivals_map_emitted, eventsOf]
  | @refused batch emits e hemits =>
      obtain ⟨front, event, back, hevents, rfl⟩ := hemits.exists_of_error
      rw [← List.cons_append]
      apply Delivers.refused front
      · rw [emissions_fetched, emissions_map_emitted]
      · rw [arrivals_fetched, arrivals_map_emitted, List.append_nil, eventsOf, hevents]
        exact ⟨back, by rw [List.append_assoc, List.singleton_append]⟩
  | failed => exact .all rfl
  | exhausted => exact .all rfl

theorem Polls.emissions_eq (h : Polls c p acts (.running q)) :
    emissions acts = (arrivals acts).map (·, .ok ()) ∧ q.polls = p.polls + 1 ∧
      q.emitted = p.emitted + (emissions acts).length := by
  cases h with
  | @done batch emits emitted hemits =>
      obtain ⟨rfl, rfl⟩ := hemits.eq_of_ok
      simp [arrivals_map_emitted, eventsOf]
  | failed => exact ⟨rfl, rfl, rfl⟩

theorem Runs.delivers {budget : Nat} (h : Runs c budget p acts outcome) :
    Delivers acts outcome := by
  induction h with
  | stopped => exact .all rfl
  | spent => exact .all rfl
  | ended hpoll =>
      rw [← List.singleton_append]
      exact .append rfl hpoll.delivers
  | @polled budget p q acts more outcome hpoll _ ih =>
      rw [← List.cons_append]
      exact .append hpoll.emissions_eq.1 ih

theorem Runs.counts {budget : Nat} (h : Runs c budget p acts (.stopped q)) :
    q.polls = p.polls + (fetches acts).length ∧
      q.emitted = p.emitted + (emissions acts).length := by
  generalize houtcome : Outcome.stopped q = outcome at h
  induction h with
  | stopped =>
      cases houtcome
      exact ⟨rfl, rfl⟩
  | spent => cases houtcome
  | ended => cases houtcome
  | @polled budget p r acts more outcome hpoll _ ih =>
      obtain ⟨answer, hfetches, -⟩ := hpoll.fetches_eq
      obtain ⟨-, hpolls, hemitted⟩ := hpoll.emissions_eq
      obtain ⟨hmorePolls, hmoreEmitted⟩ := ih houtcome
      rw [fetches_checked, fetches_append, hfetches, emissions_checked, emissions_append]
      simp only [List.length_append, List.length_singleton]
      omega

end

/-- As long as the sink takes what it is given, the events of all batches are emitted, in order and
once each, whenever the run is cancelled. What is reported counts the fetches and the events. The
first event that is refused ends the run, which fails with the error of the sink. -/
theorem emissions_of_fetches [Cursor κ] [MonadClock (StateM ω)] (c : Config)
    (fetch : κ → StateM ω (Except ErrorChain (Batch κ ε))) (emit : ε → StateM ω (Except Error Unit))
    (budget : Nat) (initial : κ) (w : ω) :
    ((∀ event e, .emitted event (.error e) ∉ acts fetch emit c budget (.start initial) w) →
      (emissions (acts fetch emit c budget (.start initial) w)).map Prod.fst =
        arrivals (acts fetch emit c budget (.start initial) w)) ∧
    (∀ report, ((run c fetch emit budget (.start initial)).run w).1.report? = some report →
      report.polls = (fetches (acts fetch emit c budget (.start initial) w)).length ∧
      report.emitted = (emissions (acts fetch emit c budget (.start initial) w)).length ∧
      report.cursor = cursorAfter initial
        ((fetches (acts fetch emit c budget (.start initial) w)).map Prod.snd) ∧
      report.state = .stopped) ∧
    ∀ j event e,
      (emissions (acts fetch emit c budget (.start initial) w))[j]? = some (event, .error e) →
      ((run c fetch emit budget (.start initial)).run w).1 = .failed e ∧
      (emissions (acts fetch emit c budget (.start initial) w)).length = j + 1 ∧
      (emissions (acts fetch emit c budget (.start initial) w)).map Prod.fst =
        (arrivals (acts fetch emit c budget (.start initial) w)).take (j + 1) ∧
      (acts fetch emit c budget (.start initial) w).getLast? =
        some (.emitted event (.error e)) := by
  have hruns := runs_acts fetch emit c budget (.start initial) w
  refine ⟨?_, ?_, ?_⟩
  · intro htaken
    rw [hruns.delivers.emissions_eq htaken]
    exact map_fst_taken _
  · intro report hreport
    cases houtcome : ((run c fetch emit budget (.start initial)).run w).1 with
    | stopped p =>
        rw [houtcome] at hruns hreport
        cases hreport
        obtain ⟨hpolls, hemitted⟩ := hruns.counts
        refine ⟨?_, ?_, hruns.follows.2 p rfl, rfl⟩
        · exact hpolls.trans (Nat.zero_add _)
        · exact hemitted.trans (Nat.zero_add _)
    | failed e => rw [houtcome] at hreport; cases hreport
    | running p => rw [houtcome] at hreport; cases hreport
  · intro j event e hj
    exact hruns.delivers.of_refused hj

def narrow (event : String) : World.Sim (Except Error Unit) := do
  if (← get).records.size = 3 then return .error (.io "full")
  modify (·.write event)
  return .ok ()

/-- One run is cancelled while it emits the first of two events, the other one is refused its fourth
event. -/
theorem emissions_of_fetches_narrow :
    (∃ trace, acts flaky narrow ⟨1000, none, .unbounded⟩ 9 (.start 10)
        { World.start ⟨[]⟩ none with script := [(1, .cancel)] } = trace ∧
      (fetches trace).length = 1 ∧ (emissions trace).map Prod.fst = ["a", "b"]) ∧
    ∃ trace, acts flaky narrow ⟨1000, none, .unbounded⟩ 9 (.start 10) (World.start ⟨[]⟩ none) =
        trace ∧
      (emissions trace).map Prod.fst = ["a", "b", "c", "c"] ∧
      trace.getLast? = some (.emitted "c" (.error (.io "full"))) := by
  obtain ⟨htaken, hreport, -⟩ := emissions_of_fetches ⟨1000, none, .unbounded⟩ flaky narrow 9 10
    { World.start ⟨[]⟩ none with script := [(1, .cancel)] }
  obtain ⟨-, -, hrefused⟩ := emissions_of_fetches ⟨1000, none, .unbounded⟩ flaky narrow 9 10
    (World.start ⟨[]⟩ none)
  obtain ⟨hpolls, -⟩ := hreport ⟨12, 1, 2, .stopped⟩ rfl
  obtain ⟨-, -, hevents, hlast⟩ := hrefused 3 "c" (.io "full") rfl
  refine ⟨⟨_, rfl, hpolls.symm, htaken ?_⟩, ⟨_, rfl, hevents, hlast⟩⟩
  have hacts : acts flaky narrow ⟨1000, none, .unbounded⟩ 9 (.start 10)
      { World.start ⟨[]⟩ none with script := [(1, .cancel)] } =
        [.checked false, .fetched 10 (.ok ⟨["a", "b"], some 12⟩), .emitted "a" (.ok ()),
          .emitted "b" (.ok ()), .slept 1000, .checked true] := rfl
  simp [hacts]

end ChannelAdapter.Monitor
