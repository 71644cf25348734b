import Mathlib.Data.List.Chain
import ChannelAdapter.Proofs.Monitor.Pace
import ChannelAdapter.Proofs.World
/-!
When a monitor fetches, and when it ends. The first fetch comes at once, each further one when the
pause after the one before it is over, and none after the cancellation, after which no time passes
either. A pause is never longer than the longest sleep.
-/

namespace ChannelAdapter.Monitor

variable {κ ε ω : Type}

/-! Fetches, one after the other. -/

/-- Fetches with pauses between them, from the time of a clock on. -/
structure Spaced (c : Config) (clock : Clock) (spans : List (Span κ ε)) : Prop where
  first : ∀ s, spans.head? = some s → s.start = clock
  awake : ∀ s ∈ spans, s.start.isCancelled = false
  /-- A fetch begins when the pause after the one before it is over, and thus later than that. -/
  apart : spans.IsChain fun s t =>
    t.start.now = s.finish.now + min Clock.longest (c.wait s.answer) ∧
      s.start.now ≤ s.finish.now ∧ s.finish.now < t.start.now

theorem Spaced.cons {c : Config} {s : Span κ ε} {spans : List (Span κ ε)} {start : Clock}
    (h : Spaced c start spans) (hs : s.start.isCancelled = false)
    (hstart : start.isCancelled = false →
      start.now = s.finish.now + min Clock.longest (c.wait s.answer) ∧
        s.start.now ≤ s.finish.now ∧ s.finish.now < start.now) :
    Spaced c s.start (s :: spans) where
  first _ ht := by
    cases ht
    rfl
  awake t ht := by
    cases ht with
    | head => exact hs
    | tail _ ht => exact h.awake t ht
  apart := by
    rw [List.isChain_cons]
    refine ⟨?_, h.apart⟩
    intro t ht
    have hawake := h.awake t (List.mem_of_mem_head? ht)
    rw [h.first t ht] at hawake ⊢
    exact hstart hawake

theorem spaced_nil (c : Config) (clock : Clock) : Spaced c clock ([] : List (Span κ ε)) where
  first _ hs := by cases hs
  awake _ hs := by cases hs
  apart := .nil

section
variable [Cursor κ] [MonadClock (StateM ω)] {clock : ω → Clock}
  {fetch : κ → StateM ω (Except ErrorChain (Batch κ ε))} {emit : ε → StateM ω (Except Error Unit)}
  {c : Config} {p : Progress κ} {w w' : ω} {acts : List (Act κ ε)} {outcome : Outcome κ}

theorem Polls.span (h : Paced clock fetch emit) (hpoll : Polls c p acts outcome) (w : ω) :
    ∃ s, spans clock fetch emit w acts = [s] ∧ s.start = clock w ∧ s.start.now ≤ s.finish.now ∧
      ∀ q, outcome = .running q →
        (clock (Watched.replay (Act.perform fetch emit) w acts)).isCancelled = false →
        (clock (Watched.replay (Act.perform fetch emit) w acts)).now =
          s.finish.now + min Clock.longest (c.wait s.answer) := by
  cases hpoll with
  | @done batch emits emitted hemits =>
      obtain ⟨rfl, -⟩ := hemits.eq_of_ok
      refine ⟨_, spans_fetched p.cursor _ (by simp [hemits.fetches_eq_nil]), rfl,
        (h.leads_fetch p.cursor w).now_le, ?_⟩
      intro q _ hw
      rw [← List.cons_append] at hw ⊢
      rw [h.now_slept hw]
      exact congrArg (· + _) (h.now_emits batch.events _)
  | @refused batch emits e hemits =>
      refine ⟨_, spans_fetched p.cursor _ hemits.fetches_eq_nil, rfl,
        (h.leads_fetch p.cursor w).now_le, ?_⟩
      intro q hq
      cases hq
  | @failed chain hretry =>
      refine ⟨_, spans_fetched p.cursor _ rfl, rfl, (h.leads_fetch p.cursor w).now_le, ?_⟩
      intro q _ hw
      rw [← List.singleton_append] at hw ⊢
      exact h.now_slept hw
  | @exhausted chain hretry =>
      refine ⟨_, spans_fetched p.cursor _ rfl, rfl, (h.leads_fetch p.cursor w).now_le, ?_⟩
      intro q hq
      cases hq

theorem Runs.spaced {budget : Nat} (h : Paced clock fetch emit) (hc : c.check = .ok ())
    (hruns : Runs c budget p acts outcome)
    (hpath : Watched.Path (Act.perform fetch emit) w acts w') :
    Spaced c (clock w) (spans clock fetch emit w acts) := by
  induction hruns generalizing w with
  | stopped => exact spaced_nil c (clock w)
  | spent => exact spaced_nil c (clock w)
  | ended hpoll =>
      obtain ⟨hawake, -⟩ := h.checked hpath
      obtain ⟨s, hs, hstart, -, -⟩ := hpoll.span h w
      rw [h.spans_checked, hs, ← hstart]
      rw [← hstart] at hawake
      apply (spaced_nil c (clock w').cancel).cons hawake
      intro hcancel
      cases hcancel
  | @polled budget p q acts more outcome hpoll _ ih =>
      obtain ⟨hawake, hpath⟩ := h.checked hpath
      obtain ⟨-, hmore⟩ := hpath.split
      obtain ⟨s, hs, hstart, hle, hend⟩ := hpoll.span h w
      rw [h.spans_checked, spans_append, hs, ← hstart]
      rw [← hstart] at hawake
      -- a pause that has been cut short is followed by a run that fetches nothing
      apply (ih hmore).cons hawake
      intro hw
      have hnow := hend q rfl hw
      have hpos := Config.wait_pos hc s.answer
      exact ⟨hnow, hle, by omega⟩

/-! The beginning and the end of a run. -/

theorem Runs.spans_ne_nil {budget : Nat} (h : Paced clock fetch emit)
    (hruns : Runs c (budget + 1) p acts outcome)
    (hpath : Watched.Path (Act.perform fetch emit) w acts w')
    (hw : (clock w).isCancelled = false) : spans clock fetch emit w acts ≠ [] := by
  cases hruns with
  | stopped => exact absurd (hw.symm.trans (h.checked hpath).1) Bool.false_ne_true
  | ended hpoll =>
      obtain ⟨s, hs, -⟩ := hpoll.span h w
      rw [h.spans_checked, hs]
      exact List.cons_ne_nil s []
  | polled hpoll =>
      obtain ⟨s, hs, -⟩ := hpoll.span h w
      rw [h.spans_checked, spans_append, hs]
      exact List.cons_ne_nil s _

theorem Runs.of_isCancelled {budget : Nat} (h : Paced clock fetch emit)
    (hruns : Runs c budget p acts outcome)
    (hpath : Watched.Path (Act.perform fetch emit) w acts w')
    (hw : (clock w).isCancelled = true) : acts = [.checked true] ∧ outcome = .stopped p := by
  cases hruns with
  | stopped => exact ⟨rfl, rfl⟩
  | spent => exact absurd ((h.checked hpath).1.symm.trans hw) Bool.false_ne_true
  | ended => exact absurd ((h.checked hpath).1.symm.trans hw) Bool.false_ne_true
  | polled => exact absurd ((h.checked hpath).1.symm.trans hw) Bool.false_ne_true

theorem Runs.isCancelled_of_stopped {budget : Nat} {q : Progress κ} (h : Paced clock fetch emit)
    (hruns : Runs c budget p acts (.stopped q))
    (hpath : Watched.Path (Act.perform fetch emit) w acts w') : (clock w').isCancelled = true := by
  have hends := hruns.ends
  cases hends with
  | stopped front =>
      obtain ⟨-, hlast⟩ := hpath.split
      obtain ⟨hcancelled, hlast⟩ := h.checked hlast
      cases hlast
      exact hcancelled

theorem Runs.of_running {budget : Nat} {q : Progress κ} (h : Paced clock fetch emit)
    (hc : c.check = .ok ()) (hruns : Runs c budget p acts (.running q))
    (hpath : Watched.Path (Act.perform fetch emit) w acts w') :
    (clock w).isCancelled = false ∧ (clock w').isCancelled = false ∧
      (clock w).now + budget ≤ (clock w').now := by
  generalize houtcome : Outcome.running q = outcome at hruns
  induction hruns generalizing w with
  | stopped => cases houtcome
  | spent =>
      obtain ⟨hw, hpath⟩ := h.checked hpath
      cases hpath
      exact ⟨hw, hw, Nat.le_refl _⟩
  | ended => cases houtcome
  | @polled budget p r acts more outcome hpoll _ ih =>
      obtain ⟨hw, hpath⟩ := h.checked hpath
      obtain ⟨-, hmore⟩ := hpath.split
      obtain ⟨hnext, hend, hle⟩ := ih hmore houtcome
      obtain ⟨s, -, hstart, hfinish, hnow⟩ := hpoll.span h w
      have hnow := hnow r rfl hnext
      have hpos := Config.wait_pos hc s.answer
      rw [hstart] at hfinish
      exact ⟨hw, hend, by omega⟩

end

/-- What the clock says of a run. It is known after each front part of the acts. -/
structure Scheduled (c : Config) (budget : Nat) (clockAt : List (Act κ ε) → Clock)
    (spans : List (Span κ ε)) (acts : List (Act κ ε)) (outcome : Outcome κ) : Prop where
  spaced : Spaced c (clockAt []) spans
  begun (hawake : (clockAt []).isCancelled = false) (hbudget : 0 < budget) : spans ≠ []
  /-- After the cancellation nothing is fetched, and no time passes. -/
  still (front back : List (Act κ ε)) (hacts : acts = front ++ back)
    (hcancelled : (clockAt front).isCancelled = true) :
    fetches back = [] ∧ (clockAt acts).isCancelled = true ∧
      (clockAt acts).now = (clockAt front).now
  /-- A cancellation that is due during a sleep ends the run at its time. -/
  asleep (front back : List (Act κ ε)) (ms t : Nat) (hacts : acts = front ++ .slept ms :: back)
    (hawake : (clockAt front).isCancelled = false) (ht : (clockAt front).cancelAt = some t)
    (hdue : t ≤ (clockAt front).now + min Clock.longest ms) :
    (clockAt acts).now = t ∧ outcome.report?.isSome = true
  whole (htaken : ∀ event e, .emitted event (.error e) ∉ acts) :
    (emissions acts).map Prod.fst = arrivals acts
  /-- A run that is cancelled gives a report, unless its last act is an event that is refused or one
  failure too many. -/
  ended (hcancelled : (clockAt acts).isCancelled = true) :
    outcome.report?.isSome = true ∨
    (∃ front event e, acts = front ++ [.emitted event (.error e)] ∧ outcome = .failed e) ∨
    ∃ front cursor chain failures, acts = front ++ [.fetched cursor (.error chain)] ∧
      c.retry.isExhausted failures = true ∧
      outcome = .failed (.tooManyErrors failures chain.message)
  reported (hreport : outcome.report?.isSome = true) : (clockAt acts).isCancelled = true
  unended (p : Progress κ) (hrunning : outcome = .running p) :
    (clockAt acts).isCancelled = false ∧ (clockAt []).now + budget ≤ (clockAt acts).now

section
variable [Cursor κ] [MonadClock (StateM ω)] {clock : ω → Clock}
  {fetch : κ → StateM ω (Except ErrorChain (Batch κ ε))} {emit : ε → StateM ω (Except Error Unit)}
  {c : Config} {budget : Nat} {p : Progress κ} {w w' : ω} {acts : List (Act κ ε)}
  {outcome : Outcome κ}

theorem Runs.asleep {front back : List (Act κ ε)} {ms t : Nat} (h : Paced clock fetch emit)
    (hruns : Runs c budget p (front ++ .slept ms :: back) outcome)
    (hpath : Watched.Path (Act.perform fetch emit) w (.slept ms :: back) w')
    (hpunctual : (clock w).Punctual) (hawake : (clock w).isCancelled = false)
    (ht : (clock w).cancelAt = some t) (hdue : t ≤ (clock w).now + min Clock.longest ms) :
    (clock w').now = t ∧ outcome.report?.isSome = true := by
  obtain ⟨budget', q, hback⟩ := hruns.of_slept
  obtain ⟨hnow, hcancelled⟩ := Clock.sleep_of_due hpunctual hawake ht hdue
  cases hpath with
  | @cons _ v _ _ _ hact hpath =>
      have hsleep : clock v = (clock w).sleep ms := by
        rw [← h.timed.sleep ms w]
        exact congrArg (fun r => clock r.2) hact.symm
      rw [← hsleep] at hnow hcancelled
      obtain ⟨rfl, rfl⟩ := hback.of_isCancelled h hpath hcancelled
      obtain ⟨-, hlast⟩ := h.checked hpath
      cases hlast
      exact ⟨hnow, rfl⟩

theorem Runs.still {front back : List (Act κ ε)} (h : Paced clock fetch emit)
    (hc : c.check = .ok ()) (hruns : Runs c budget p (front ++ back) outcome)
    (hpath : Watched.Path (Act.perform fetch emit) w (front ++ back) w')
    (hcancelled : (clock (Watched.replay (Act.perform fetch emit) w front)).isCancelled = true) :
    fetches back = [] ∧
      (clock (Watched.replay (Act.perform fetch emit) w (front ++ back))).isCancelled = true ∧
      (clock (Watched.replay (Act.perform fetch emit) w (front ++ back))).now =
        (clock (Watched.replay (Act.perform fetch emit) w front)).now := by
  have hspaced := hruns.spaced h hc hpath
  have hnone : spans clock fetch emit (Watched.replay (Act.perform fetch emit) w front) back =
      [] := by
    apply List.eq_nil_iff_forall_not_mem.mpr
    intro s hs
    have hawake : s.start.isCancelled = false := by
      apply hspaced.awake
      rw [spans_append]
      exact List.mem_append_right _ hs
    rw [(h.leads_start hs).isCancelled hcancelled] at hawake
    cases hawake
  have hback := fetches_eq_nil_of_spans hnone
  rw [Watched.replay_append]
  exact ⟨hback, (h.leads_replay _ back).isCancelled hcancelled, h.now_replay hback hcancelled⟩

theorem Runs.scheduled (h : Paced clock fetch emit) (hc : c.check = .ok ())
    (hw : (clock w).Punctual) (hruns : Runs c budget p acts outcome)
    (hpath : Watched.Path (Act.perform fetch emit) w acts w') :
    Scheduled c budget (fun front => clock (Watched.replay (Act.perform fetch emit) w front))
      (spans clock fetch emit w acts) acts outcome where
  spaced := hruns.spaced h hc hpath
  begun hawake hbudget := by
    obtain ⟨budget, rfl⟩ := Nat.exists_eq_add_one.mpr hbudget
    exact hruns.spans_ne_nil h hpath hawake
  still front back hacts hcancelled := by
    subst hacts
    exact hruns.still h hc hpath hcancelled
  asleep front back ms t hacts hawake ht hdue := by
    subst hacts
    rw [← hpath.eq_replay]
    exact hruns.asleep h hpath.split.2 ((h.leads_replay w front).punctual hw) hawake ht hdue
  whole htaken := by
    rw [hruns.delivers.emissions_eq htaken]
    exact map_fst_taken _
  ended hcancelled := by
    rw [← hpath.eq_replay] at hcancelled
    cases hruns.ends with
    | stopped => exact .inl rfl
    | spent front =>
        rw [(hruns.of_running h hc hpath).2.1] at hcancelled
        cases hcancelled
    | refused front => exact .inr (.inl ⟨front, _, _, rfl, rfl⟩)
    | exhausted front hretry => exact .inr (.inr ⟨front, _, _, _, rfl, hretry, rfl⟩)
  reported hreport := by
    rw [← hpath.eq_replay]
    cases outcome with
    | stopped q => exact hruns.isCancelled_of_stopped h hpath
    | failed e => cases hreport
    | running q => cases hreport
  unended q hrunning := by
    subst hrunning
    rw [← hpath.eq_replay]
    exact (hruns.of_running h hc hpath).2

end

/-- What the clock says of every run of a monitor with a valid configuration. -/
theorem schedule_of_run [Cursor κ] [MonadClock (StateM ω)] (clock : ω → Clock) (c : Config)
    (fetch : κ → StateM ω (Except ErrorChain (Batch κ ε))) (emit : ε → StateM ω (Except Error Unit))
    (budget : Nat) (initial : κ) (w : ω) (h : Paced clock fetch emit) (hc : c.check = .ok ())
    (hw : (clock w).Punctual) :
    Watched.Path (Act.perform fetch emit) w (acts fetch emit c budget (.start initial) w)
        ((run c fetch emit budget (.start initial)).run w).2 ∧
      Scheduled c budget (fun front => clock (Watched.replay (Act.perform fetch emit) w front))
        (spans clock fetch emit w (acts fetch emit c budget (.start initial) w))
        (acts fetch emit c budget (.start initial) w)
        ((run c fetch emit budget (.start initial)).run w).1 := by
  have hruns := runs_acts fetch emit c budget (.start initial) w
  have hpath := path_acts fetch emit c budget (.start initial) w
  exact ⟨hpath, hruns.scheduled h hc hw hpath⟩

/-- A source of events that takes its time, and fails after the first time. -/
def slow (cursor : Nat) : World.Sim (Except ErrorChain (Batch Nat String)) := do
  let w ← get
  set { w with clock := w.clock.advance 30 }
  return if w.clock.now = 0 then .ok ⟨["a"], some (cursor + 1)⟩ else .error (.ofText "down")

def keep (event : String) : World.Sim (Except Error Unit) := do
  modify (·.write event)
  return .ok ()

theorem paced_slow : Paced World.clock slow keep where
  timed := World.timed_clock
  leads_fetch _ w := Clock.leads_advance w.clock 30
  leads_emit event w := w.leads_write event
  now_emit event w := w.now_write event

/-- One run is cancelled while it sleeps after its third fetch, the other one during its fourth
fetch. -/
theorem schedule_of_run_slow :
    (((run ⟨1000, some 50, .unbounded⟩ slow keep 9 (.start 0)).run
        (World.start ⟨[]⟩ (some 1150))).1.report?.isSome = true ∧
      ((run ⟨1000, some 50, .unbounded⟩ slow keep 9 (.start 0)).run
        (World.start ⟨[]⟩ (some 1150))).2.clock.now = 1150) ∧
    ((run ⟨1000, some 50, .unbounded⟩ slow keep 9 (.start 0)).run
        (World.start ⟨[]⟩ (some 1200))).1.report? = some ⟨1, 4, 1, .stopped⟩ ∧
      ((run ⟨1000, some 50, .unbounded⟩ slow keep 9 (.start 0)).run
        (World.start ⟨[]⟩ (some 1200))).2.clock.now = 1220 := by
  obtain ⟨hpath, hasleep⟩ := schedule_of_run World.clock ⟨1000, some 50, .unbounded⟩ slow keep 9 0
    (World.start ⟨[]⟩ (some 1150)) paced_slow rfl (Clock.punctual_start _)
  obtain ⟨hpath', hbusy⟩ := schedule_of_run World.clock ⟨1000, some 50, .unbounded⟩ slow keep 9 0
    (World.start ⟨[]⟩ (some 1200)) paced_slow rfl (Clock.punctual_start _)
  obtain ⟨hnow, hreport⟩ := hasleep.asleep (List.take 9 _) _ 50 1150
    (List.take_append_drop 9 _).symm rfl rfl (by decide)
  obtain ⟨-, -, hnow'⟩ := hbusy.still (List.take 12 _) (List.drop 12 _)
    (List.take_append_drop 12 _).symm rfl
  refine ⟨⟨hreport, ?_⟩, rfl, ?_⟩
  · rw [hpath.eq_replay]
    exact hnow
  · rw [hpath'.eq_replay]
    exact hnow'

def silent (_ : Nat) : World.Sim (Except ErrorChain (Batch Nat String)) :=
  return .ok ⟨[], none⟩

/-- Not every pause is as long as it is configured to be: none is longer than the longest sleep. -/
theorem not_forall_exact_wait :
    ¬ ∀ (c : Config) (budget : Nat), c.check = .ok () →
      (spans World.clock silent keep (World.start ⟨[]⟩ none)
        (acts silent keep c budget (.start 1) (World.start ⟨[]⟩ none))).IsChain
          fun s t => t.start.now = s.finish.now + c.wait s.answer := by
  intro h
  have hchain := h ⟨1000000000000, none, .unbounded⟩ 2 rfl
  have hspans : spans World.clock silent keep (World.start ⟨[]⟩ none)
      (acts silent keep ⟨1000000000000, none, .unbounded⟩ 2 (.start 1) (World.start ⟨[]⟩ none)) =
        [⟨⟨0, false, none⟩, .ok ⟨[], none⟩, ⟨0, false, none⟩⟩,
          ⟨⟨Clock.longest, false, none⟩, .ok ⟨[], none⟩, ⟨Clock.longest, false, none⟩⟩] := rfl
  rw [hspans, List.isChain_cons_cons] at hchain
  exact absurd hchain.1 (by decide)

end ChannelAdapter.Monitor
