import ChannelAdapter.Proofs.Clock
import ChannelAdapter.Proofs.Monitor.Emission
/-!
The time that a monitor takes. Only fetches and sleeps take any, and once the run is cancelled only
fetches do.
-/

namespace ChannelAdapter.Monitor

variable {κ ε ω : Type}

def Config.wait (c : Config) : Except ErrorChain (Batch κ ε) → Nat
  | .ok _ => c.interval
  | .error _ => c.pause

theorem Config.wait_pos {c : Config} (h : c.check = .ok ())
    (answer : Except ErrorChain (Batch κ ε)) : 0 < min Clock.longest (c.wait answer) := by
  have hinterval : 0 < c.interval := by
    rw [Nat.pos_iff_ne_zero]
    intro hzero
    rw [Config.check, if_pos hzero] at h
    cases h
  apply Nat.lt_min.mpr
  refine ⟨by decide, ?_⟩
  cases answer with
  | ok => exact hinterval
  | error => exact Config.pause_pos hinterval

/-- A fetch, with the clock before and after it. -/
structure Span (κ ε : Type) where
  start : Clock
  answer : Except ErrorChain (Batch κ ε)
  finish : Clock

/-- What a monitor is given by a world that a clock tells the time of. A fetch may take time, to
emit takes none. Both may cancel the run. -/
structure Paced [MonadClock (StateM ω)] (clock : ω → Clock)
    (fetch : κ → StateM ω (Except ErrorChain (Batch κ ε)))
    (emit : ε → StateM ω (Except Error Unit)) : Prop where
  timed : Timed clock
  leads_fetch (cursor : κ) (w : ω) : (clock w).Leads (clock ((fetch cursor).run w).2)
  leads_emit (event : ε) (w : ω) : (clock w).Leads (clock ((emit event).run w).2)
  now_emit (event : ε) (w : ω) : (clock ((emit event).run w).2).now = (clock w).now

section
variable [MonadClock (StateM ω)] (clock : ω → Clock)
  (fetch : κ → StateM ω (Except ErrorChain (Batch κ ε))) (emit : ε → StateM ω (Except Error Unit))

def spans (w : ω) : List (Act κ ε) → List (Span κ ε)
  | [] => []
  | act :: acts =>
      let w' := ((act.perform fetch emit).run w).2
      match act with
      | .fetched _ answer => ⟨clock w, answer, clock w'⟩ :: spans w' acts
      | _ => spans w' acts

theorem spans_append (w : ω) (acts more : List (Act κ ε)) :
    spans clock fetch emit w (acts ++ more) = spans clock fetch emit w acts ++
      spans clock fetch emit (Watched.replay (Act.perform fetch emit) w acts) more := by
  induction acts generalizing w with
  | nil => rfl
  | cons act acts ih => cases act <;> simp [spans, ih]

theorem map_answer_spans (w : ω) (acts : List (Act κ ε)) :
    (spans clock fetch emit w acts).map Span.answer = (fetches acts).map Prod.snd := by
  induction acts generalizing w with
  | nil => rfl
  | cons act acts ih => cases act <;> simp [spans, ih]

end

section
variable [MonadClock (StateM ω)] {clock : ω → Clock}
  {fetch : κ → StateM ω (Except ErrorChain (Batch κ ε))} {emit : ε → StateM ω (Except Error Unit)}
  {w w' : ω} {acts : List (Act κ ε)}

theorem fetches_eq_nil_of_spans (h : spans clock fetch emit w acts = []) : fetches acts = [] := by
  have hmap := map_answer_spans clock fetch emit w acts
  rw [h, List.map_nil] at hmap
  exact List.map_eq_nil_iff.mp hmap.symm

theorem spans_eq_nil_of_fetches (h : fetches acts = []) : spans clock fetch emit w acts = [] := by
  have hmap := map_answer_spans clock fetch emit w acts
  rw [h, List.map_nil] at hmap
  exact List.map_eq_nil_iff.mp hmap

theorem spans_fetched (cursor : κ) (answer : Except ErrorChain (Batch κ ε))
    (h : fetches acts = []) :
    spans clock fetch emit w (.fetched cursor answer :: acts) =
      [⟨clock w, answer, clock ((fetch cursor).run w).2⟩] := by
  change _ :: spans clock fetch emit _ acts = _
  rw [spans_eq_nil_of_fetches h]
  rfl

/-! Time goes on with each act. -/

section
variable (h : Paced clock fetch emit)
include h

theorem Paced.leads_perform (act : Act κ ε) (w : ω) :
    (clock w).Leads (clock ((act.perform fetch emit).run w).2) := by
  cases act with
  | checked cancelled =>
      change (clock w).Leads (clock ((MonadClock.isCancelled : StateM ω Bool).run w).2)
      rw [h.timed.check]
      exact .refl _
  | fetched cursor => exact h.leads_fetch cursor w
  | emitted event => exact h.leads_emit event w
  | slept ms =>
      change (clock w).Leads (clock ((MonadClock.sleep ms : StateM ω Unit).run w).2)
      rw [h.timed.sleep]
      exact Clock.leads_sleep _ ms

theorem Paced.leads_replay (w : ω) (acts : List (Act κ ε)) :
    (clock w).Leads (clock (Watched.replay (Act.perform fetch emit) w acts)) := by
  induction acts generalizing w with
  | nil => exact .refl _
  | cons act acts ih => exact (h.leads_perform act w).trans (ih _)

theorem Paced.now_perform {act : Act κ ε} (hact : fetches [act] = [])
    (hw : (clock w).isCancelled = true) :
    (clock ((act.perform fetch emit).run w).2).now = (clock w).now := by
  cases act with
  | checked cancelled =>
      change (clock ((MonadClock.isCancelled : StateM ω Bool).run w).2).now = _
      rw [h.timed.check]
  | fetched cursor answer => cases hact
  | emitted event => exact h.now_emit event w
  | slept ms =>
      change (clock ((MonadClock.sleep ms : StateM ω Unit).run w).2).now = _
      rw [h.timed.sleep, Clock.sleep_of_isCancelled hw]

theorem Paced.now_replay (hacts : fetches acts = []) (hw : (clock w).isCancelled = true) :
    (clock (Watched.replay (Act.perform fetch emit) w acts)).now = (clock w).now := by
  induction acts generalizing w with
  | nil => rfl
  | cons act acts ih =>
      rw [← List.singleton_append, fetches_append, List.append_eq_nil_iff] at hacts
      rw [Watched.replay_cons, ih hacts.2 ((h.leads_perform act w).isCancelled hw)]
      exact h.now_perform hacts.1 hw

theorem Paced.now_emits (events : List ε) (w : ω) :
    (clock (Watched.replay (Act.perform fetch emit) w
      (events.map (.emitted · (.ok ()))))).now = (clock w).now := by
  induction events generalizing w with
  | nil => rfl
  | cons event events ih => exact (ih _).trans (h.now_emit event w)

theorem Paced.now_slept {ms : Nat}
    (hw : (clock (Watched.replay (Act.perform fetch emit) w (acts ++ [.slept ms]))).isCancelled =
      false) :
    (clock (Watched.replay (Act.perform fetch emit) w (acts ++ [.slept ms]))).now =
      (clock (Watched.replay (Act.perform fetch emit) w acts)).now + min Clock.longest ms := by
  rw [Watched.replay_append] at hw ⊢
  change (clock ((MonadClock.sleep ms : StateM ω Unit).run _).2).isCancelled = false at hw
  change (clock ((MonadClock.sleep ms : StateM ω Unit).run _).2).now = _
  rw [h.timed.sleep] at hw ⊢
  exact Clock.now_sleep hw

theorem Paced.leads_start {s : Span κ ε} (hs : s ∈ spans clock fetch emit w acts) :
    (clock w).Leads s.start := by
  induction acts generalizing w with
  | nil => cases hs
  | cons act acts ih =>
      have hact := h.leads_perform act w
      cases act with
      | fetched cursor answer =>
          cases hs with
          | head => exact .refl _
          | tail _ hs => exact hact.trans (ih hs)
      | checked | emitted | slept => exact hact.trans (ih hs)

theorem Paced.run_checked (cancelled : Bool) (w : ω) :
    ((Act.checked cancelled : Act κ ε).perform fetch emit).run w =
      (.checked (clock w).isCancelled, w) := by
  rw [Act.perform, StateT.run_map, h.timed.check]
  rfl

theorem Paced.checked {cancelled : Bool}
    (hpath : Watched.Path (Act.perform fetch emit) w (.checked cancelled :: acts) w') :
    (clock w).isCancelled = cancelled ∧ Watched.Path (Act.perform fetch emit) w acts w' := by
  cases hpath with
  | cons hact hacts =>
      rw [h.run_checked] at hact
      cases hact
      exact ⟨rfl, hacts⟩

theorem Paced.spans_checked (cancelled : Bool) :
    spans clock fetch emit w (.checked cancelled :: acts) = spans clock fetch emit w acts := by
  change spans clock fetch emit (((Act.checked cancelled : Act κ ε).perform fetch emit).run w).2
    acts = _
  rw [h.run_checked]

end

end

end ChannelAdapter.Monitor
