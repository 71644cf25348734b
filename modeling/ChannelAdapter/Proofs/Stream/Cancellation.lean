import ChannelAdapter.Proofs.Stream.Calls
import ChannelAdapter.Proofs.World
/-!
Where a dispatch ends. A cancellation ends it before the next line, whether it comes before the
run, from a callback or while the input is waited for; a failure of the input ends it after the
lines that have come whole.
-/

namespace ChannelAdapter.Stream

variable {σ ω : Type} [MonadClock (StateM ω)] [MonadOutput (StateM ω)]

/-- Worlds that tell whether the run is cancelled, which nothing takes back. -/
structure Lasting (cancelled : ω → Bool) (h : Handler σ (StateM ω)) (outside : ω → ω → Prop) :
    Prop where
  check (w : ω) : (MonadClock.isCancelled : StateM ω Bool).run w = (cancelled w, w)
  call {w w' : ω} {e : Event} {s : σ} {result : Except ErrorChain Unit × σ}
    (hw : cancelled w = true) (hrun : ((h.on e).run s).run w = (result, w')) :
    cancelled w' = true
  write {w w' : ω} {record : String} {answer : Except String Unit} (hw : cancelled w = true)
    (hrun : (MonadOutput.put record : StateM ω _).run w = (answer, w')) : cancelled w' = true
  wait {w w' : ω} (hw : cancelled w = true) (hwait : outside w w') : cancelled w' = true

/-! Histories of runs that are cancelled at some time. -/

section
variable {cancelled : ω → Bool} {h : Handler σ (StateM ω)} {outside : ω → ω → Prop} {s s' : σ}
  {w w' : ω} {acts : List Act} {turns : List (Turn σ ω)}

theorem History.at_turn {front back : List (Turn σ ω)} {t : Turn σ ω}
    (hacts : History h outside s w acts (front ++ t :: back) s' w') :
    ∃ before after, acts = before ++ .called t.event t.answer :: after ∧
      History h outside s w before front t.state t.world ∧
      ((h.on t.event).run t.state).run t.world = ((t.answer, t.nextState), t.nextWorld) ∧
      History h outside t.nextState t.nextWorld after back s' w' := by
  generalize hturns : front ++ t :: back = turns at hacts
  induction hacts generalizing front with
  | nil => simp at hturns
  | checked hrun _ ih =>
      obtain ⟨before, after, rfl, hbefore, hafter⟩ := ih hturns
      exact ⟨_ :: before, after, rfl, .checked hrun hbefore, hafter⟩
  | called hrun hmore ih =>
      cases front with
      | nil =>
          cases hturns
          exact ⟨[], _, rfl, .nil, hrun, hmore⟩
      | cons first front =>
          cases hturns
          obtain ⟨before, after, rfl, hbefore, hafter⟩ := ih rfl
          exact ⟨_ :: before, after, rfl, .called hrun hbefore, hafter⟩
  | wrote hrun _ ih =>
      obtain ⟨before, after, rfl, hbefore, hafter⟩ := ih hturns
      exact ⟨_ :: before, after, rfl, .wrote hrun hbefore, hafter⟩
  | waited hwait _ ih =>
      obtain ⟨before, after, rfl, hbefore, hafter⟩ := ih hturns
      exact ⟨before, after, rfl, .waited hwait hbefore, hafter⟩

variable (hlasting : Lasting cancelled h outside)
include hlasting

theorem Lasting.check_eq {found : Bool}
    (hrun : (MonadClock.isCancelled : StateM ω Bool).run w = (found, w')) :
    cancelled w = found ∧ w' = w := by
  rw [hlasting.check] at hrun
  cases hrun
  exact ⟨rfl, rfl⟩

theorem History.stopped (hacts : History h outside s w acts turns s' w')
    (hw : cancelled w = true) : cancelled w' = true ∧ .checked false ∉ acts := by
  induction hacts with
  | nil => exact ⟨hw, List.not_mem_nil⟩
  | checked hrun _ ih =>
      obtain ⟨hfound, rfl⟩ := hlasting.check_eq hrun
      obtain ⟨hend, hmore⟩ := ih hw
      refine ⟨hend, ?_⟩
      rw [← hfound, hw]
      simpa using hmore
  | called hrun _ ih =>
      obtain ⟨hend, hmore⟩ := ih (hlasting.call hw hrun)
      exact ⟨hend, by simpa using hmore⟩
  | wrote hrun _ ih =>
      obtain ⟨hend, hmore⟩ := ih (hlasting.write hw hrun)
      exact ⟨hend, by simpa using hmore⟩
  | waited hwait _ ih => exact ih (hlasting.wait hw hwait)

theorem History.clear_of_last (hacts : History h outside s w (acts ++ [.checked false]) turns s' w') :
    .checked true ∉ acts := by
  generalize hall : acts ++ [.checked false] = all at hacts
  induction hacts generalizing acts with
  | nil => simp at hall
  | @checked _ _ w _ _ found _ _ hrun hmore ih =>
      cases acts with
      | nil => exact List.not_mem_nil
      | cons act acts =>
          cases hall
          obtain ⟨hfound, rfl⟩ := hlasting.check_eq hrun
          have hgoesOn : found = false := by
            rw [← hfound, ← Bool.not_eq_true]
            intro hw
            exact (hmore.stopped hlasting hw).2 (List.mem_append_right _ List.mem_cons_self)
          rw [hgoesOn]
          simpa using ih rfl
  | called _ _ ih | wrote _ _ ih =>
      cases acts with
      | nil => cases hall
      | cons act acts =>
          cases hall
          simpa using ih rfl
  | waited _ _ ih => exact ih hall

theorem History.clear (hacts : History h outside s w acts turns s' w')
    (hend : cancelled w' = false) : .checked true ∉ acts := by
  have hcheck : (MonadClock.isCancelled : StateM ω Bool).run w' = (false, w') := by
    rw [hlasting.check, hend]
  exact (hacts.append (.checked hcheck .nil)).clear_of_last hlasting

end

/-! Runs that are interrupted while they wait. -/

section
variable {cancelled : ω → Bool} {h : Handler σ (StateM ω)}

theorem Finishes.stopped {r : Report} {last : Option Input.Line} {ending : Input.Ending}
    {acts : List Act} {result : Except Error Report} (h : Finishes r last ending acts result)
    (hstopped : .checked false ∉ acts) : calls acts = [] ∧ result = .ok r := by
  cases h with
  | cancelled => exact ⟨rfl, rfl⟩
  | failed | silent | closed => exact absurd List.mem_cons_self hstopped

/-- The world in which more is waited for, once everything has been taken that is there. -/
def worldAfter (h : Handler σ (StateM ω)) (s : σ) (before : List (Input.Moment (StateM ω)))
    (w : ω) : ω :=
  ((dispatchFrom (Input.timed before .silent) h s).run w).2

theorem Lasting.worldAfter_eq {outside : ω → ω → Prop} (hlasting : Lasting cancelled h outside)
    {s : σ} {before : List (Input.Moment (StateM ω))} {w w' : ω} {p : Progress σ}
    (hrun : (before.foldlM (Input.Moment.take (takePiece h)) ⟨.start, .empty, s⟩).run w = (p, w')) :
    worldAfter h s before w = w' := by
  rw [worldAfter, dispatchFrom, Input.timed, bind_assoc, run_bind_of_run hrun]
  change ((finish h p .silent).run w').2 = w'
  rw [finish, StateT.run_bind, hlasting.check]
  cases cancelled w' <;> rfl

variable {before after : List (Input.Moment (StateM ω))} {x : StateM ω Unit}

theorem shows_interrupted (hlasting : Lasting cancelled h (Waits (before ++ .wait x :: after)))
    (s : σ) (ending : Input.Ending) (w : ω) (hbefore : cancelled (worldAfter h s before w) = false)
    (hwait : cancelled (x.run (worldAfter h s before w)).2 = true) :
    Watched.Shows
      (dispatchFrom (Input.timed ((before ++ .wait x :: after).map watchedMoment) ending) h.watched
        s)
      (dispatchFrom (Input.timed (before ++ .wait x :: after) ending) h s) w
      fun result acts _ => ∃ report, result = .ok report ∧
        Tally (Input.lines Input.maxLine (Input.received before .silent)) acts .empty report := by
  have hfront : ∀ w w', Waits before w w' → Waits (before ++ .wait x :: after) w w' := by
    rintro w w' ⟨y, hy, hrun⟩
    exact ⟨y, List.mem_append_left _ hy, hrun⟩
  have hback : ∀ w w', Waits after w w' → Waits (before ++ .wait x :: after) w w' := by
    rintro w w' ⟨y, hy, hrun⟩
    exact ⟨y, List.mem_append_right _ (List.mem_cons_of_mem _ hy), hrun⟩
  have hstart := shows_moments (h := h) List.not_mem_nil .empty s before hfront w
  rw [← Input.Reader.start_eq_holding] at hstart
  simp only [dispatchFrom, Input.timed, List.map_append, List.map_cons, List.foldlM_append,
    List.foldlM_cons, bind_assoc, pure_bind]
  apply hstart.with_run.bind
  rintro ⟨reader, r, s₁⟩ acts w₁ ⟨hrun, rfl, hpieces, turns, hacts⟩
  rw [hlasting.worldAfter_eq hrun] at hbefore hwait
  rw [watchedMoment, Input.Moment.take, Input.Moment.take, bind_assoc, bind_assoc]
  apply (Watched.Shows.lift x).bind
  rintro _ _ w₂ ⟨rfl, hx⟩
  rw [hx] at hwait
  rw [pure_bind, pure_bind]
  apply (shows_moments (Input.newline_not_mem_split _) r s₁ after hback w₂).bind
  rintro ⟨reader, r₂, s₂⟩ acts₂ w₃ ⟨rfl, hpieces₂, hacts₂⟩
  apply (shows_finish _ ending w₃).mono
  rintro result acts₃ w₄ ⟨hfinish, s₃, hacts₃⟩
  -- all checks after the wait find the run cancelled, so nothing is taken there
  obtain ⟨lateTurns, hlate⟩ := hacts₂.append hacts₃
  have hstopped := (hlate.stopped hlasting hwait).2
  rw [List.mem_append, not_or] at hstopped
  obtain ⟨hcalls₂, rfl⟩ := hpieces₂.reading.stopped hstopped.1
  obtain ⟨hcalls₃, rfl⟩ := hfinish.stopped hstopped.2
  have htaken := hpieces.reading.clear (hacts.clear hlasting hbefore)
  have hlateCalls : calls ([] ++ (acts₂ ++ acts₃)) = [] := by
    rw [List.nil_append, calls_append, hcalls₂, hcalls₃, List.append_nil]
  refine ⟨_, rfl, ?_⟩
  rw [Input.lines_eq_batches]
  exact htaken.append (tally_of_calls_eq_nil hlateCalls _)

end

/-! Runs that are cancelled before they begin or by a callback. -/

section
variable {cancelled : ω → Bool} {h : Handler σ (StateM ω)} {outside : ω → ω → Prop} {s s' : σ}
  {w w' : ω} {i : Input} {acts : List Act} {result : Except Error Report}

theorem Dispatches.exists_of_stopped {front back : List Act}
    (hdispatches : Dispatches i acts result) (hacts : acts = front ++ back) (hback : back ≠ [])
    (hstopped : .checked false ∉ back) : ∃ report, result = .ok report := by
  cases result with
  | ok report => exact ⟨report, rfl⟩
  | error e =>
      obtain ⟨checks, hchecks⟩ := hdispatches.exists_of_error
      have hlast := congrArg List.getLast? (hacts.symm.trans hchecks)
      rw [List.getLast?_append_of_ne_nil _ hback, List.getLast?_concat] at hlast
      exact absurd (List.mem_of_getLast? hlast) hstopped

theorem Dispatches.ne_nil (hdispatches : Dispatches i acts result) : acts ≠ [] := by
  cases hdispatches with
  | finished hpieces hfinish =>
      generalize i.ending = ending at hfinish
      cases hfinish <;> simp

variable (hlasting : Lasting cancelled h outside)
include hlasting

theorem Dispatches.of_cancelled {turns : List (Turn σ ω)} (hdispatches : Dispatches i acts result)
    (hhistory : History h outside s w acts turns s' w') (hw : cancelled w = true) :
    calls acts = [] ∧ result = .ok .empty := by
  have hstopped := (hhistory.stopped hlasting hw).2
  obtain ⟨report, rfl⟩ :=
    hdispatches.exists_of_stopped (List.nil_append acts).symm hdispatches.ne_nil hstopped
  obtain ⟨hcalls, rfl⟩ := hdispatches.reading.stopped hstopped
  exact ⟨hcalls, rfl⟩

theorem Dispatches.of_cancelling_turn {front back : List (Turn σ ω)} {t : Turn σ ω}
    (hdispatches : Dispatches i acts result)
    (hhistory : History h outside s w acts (front ++ t :: back) s' w')
    (hcancelled : cancelled t.nextWorld = true) :
    back = [] ∧ ∃ report taken line rest, result = .ok report ∧
      report.dispatched = front.length + 1 ∧
      Input.lines Input.maxLine i = taken ++ line :: rest ∧ event? line = some t.event ∧
      Tally (taken ++ [line]) acts .empty report := by
  obtain ⟨before, after, rfl, hbefore, -, hafter⟩ := hhistory.at_turn
  have hstopped := (hafter.stopped hlasting hcancelled).2
  obtain ⟨report, rfl⟩ :=
    hdispatches.exists_of_stopped rfl (List.cons_ne_nil _ _) (by simpa using hstopped)
  -- the check before the call let the run go on, so none before it had found it cancelled
  obtain ⟨checks, rfl⟩ := hdispatches.reading.guarded rfl
  have hclear : .checked true ∉ checks ++ [.checked false] := by
    simpa using hbefore.clear_of_last hlasting
  obtain ⟨hcalls, taken, line, rest, hlines, hevent, htally⟩ :=
    hdispatches.reading.lastCall rfl hclear hstopped
  have hback : back = [] := by
    rwa [hafter.calls_eq, List.map_eq_nil_iff] at hcalls
  refine ⟨hback, report, taken, line, rest, rfl, ?_, hlines, hevent, htally⟩
  rw [htally.dispatched, hhistory.calls_eq, hback, List.length_map, List.length_append]
  exact Nat.zero_add _

end

/-- A dispatch makes no call once the run is cancelled, and then gives what it has counted: nothing
if that was before the run, up to and with the line of the callback that was being made, or all
lines that had come when more was waited for. An input that fails is told of after the calls for all
the lines that have ended. -/
theorem calls_until_interruption (h : Handler σ (StateM ω)) (cancelled : ω → Bool) (s : σ)
    (moments : List (Input.Moment (StateM ω))) (ending : Input.Ending) (w : ω)
    (hlasting : Lasting cancelled h (Waits moments)) :
    (∃ turns s', History h (Waits moments) s w (actsFrom h s moments ending w) turns s'
      ((dispatchFrom (Input.timed moments ending) h s).run w).2) ∧
    (cancelled w = true →
      calls (actsFrom h s moments ending w) = [] ∧
      ((dispatchFrom (Input.timed moments ending) h s).run w).1 = .ok .empty) ∧
    (∀ front t back s' w',
      History h (Waits moments) s w (actsFrom h s moments ending w) (front ++ t :: back) s' w' →
      cancelled t.nextWorld = true →
      back = [] ∧
      ∃ report taken line rest,
        ((dispatchFrom (Input.timed moments ending) h s).run w).1 = .ok report ∧
        report.dispatched = front.length + 1 ∧
        Input.lines Input.maxLine (Input.received moments ending) = taken ++ line :: rest ∧
        event? line = some t.event ∧
        Tally (taken ++ [line]) (actsFrom h s moments ending w) .empty report) ∧
    (∀ before x after, moments = before ++ .wait x :: after →
      cancelled (worldAfter h s before w) = false →
      cancelled (x.run (worldAfter h s before w)).2 = true →
      ∃ report, ((dispatchFrom (Input.timed moments ending) h s).run w).1 = .ok report ∧
        Tally (Input.lines Input.maxLine (Input.received before .silent))
          (actsFrom h s moments ending w) .empty report) ∧
    ∀ reason, ending = .failed reason →
      cancelled ((dispatchFrom (Input.timed moments ending) h s).run w).2 = false →
      ((dispatchFrom (Input.timed moments ending) h s).run w).1 =
        .error (.streamUnreadable reason) ∧
      (calls (actsFrom h s moments ending w)).map Prod.fst =
        (Input.lines Input.maxLine (Input.received moments ending)).filterMap event? := by
  obtain ⟨hdispatches, s', turns, hhistory⟩ :=
    (shows_dispatchFrom (h := h) s moments (fun _ _ => id) ending w).run_nil
  change Dispatches _ (actsFrom h s moments ending w) _ at hdispatches
  change History _ _ _ _ (actsFrom h s moments ending w) _ _ _ at hhistory
  refine ⟨⟨turns, s', hhistory⟩, hdispatches.of_cancelled hlasting hhistory, ?_, ?_, ?_⟩
  · intro front t back s' w' hturns hcancelled
    exact hdispatches.of_cancelling_turn hlasting hturns hcancelled
  · rintro before x after rfl hbefore hwait
    exact (shows_interrupted hlasting s ending w hbefore hwait).run_nil
  · rintro reason rfl hend
    obtain ⟨report, hresult, htally⟩ := hdispatches.whole (hhistory.clear hlasting hend)
    exact ⟨hresult, htally.events⟩

def interrupt : World.Sim Unit :=
  modify fun w => { w with clock := w.clock.cancel }

/-- A token cancels the run, and its callback fails. -/
def quitting : Handler Nat World.Sim where
  onToken _ := do
    modify (· + 1)
    interrupt
    return .error (.ofText "enough")

theorem lasting_quitting {moments : List (Input.Moment World.Sim)}
    (hwait : ∀ x, .wait x ∈ moments → x = interrupt) :
    Lasting (·.clock.isCancelled) quitting (Waits moments) where
  check _ := rfl
  call {_ _ e _ _} hw hrun := by
    cases e with
    | token d =>
        cases hrun
        rfl
    | start | tool | reasoning | finish | failure =>
        cases hrun
        exact hw
  write {w _ record _} hw hrun := by
    cases hrun
    exact (w.leads_write record).isCancelled hw
  wait {_ _} _ h := by
    obtain ⟨x, hx, rfl⟩ := h
    rw [hwait x hx]
    rfl

def opening : List UInt8 :=
  "\x7b\"type\":\"stream_start\"\x7d\n\x7b\"type\":\"token\",\"te".toUTF8.toList

def continuation : List UInt8 :=
  "xt\":\"a\"\x7d\n\x7b\"type\":\"stream_end\"\x7d\n\x7b\"type\":".toUTF8.toList

/-- The same input is cancelled by its second callback, while its second line is waited for, or not
at all. -/
theorem calls_until_interruption_quitting :
    (∃ report,
      ((dispatchFrom (Input.timed [.bytes opening, .bytes continuation] (.failed "gone")) quitting
        0).run (World.start ⟨[]⟩ none)).1 = .ok report ∧ report.dispatched = 2) ∧
    (∃ report,
      ((dispatchFrom (Input.timed [.bytes opening, .wait interrupt, .bytes continuation] .closed)
        quitting 0).run (World.start ⟨[]⟩ none)).1 = .ok report ∧ report.dispatched = 1) ∧
    ((dispatchFrom (Input.timed [.bytes opening] (.failed "gone")) quitting 0).run
      (World.start ⟨[]⟩ none)).1 = .error (.streamUnreadable "gone") := by
  refine ⟨?_, ?_, ?_⟩
  · obtain ⟨⟨turns, s', hhistory⟩, -, hcallback, -⟩ := calls_until_interruption quitting _ 0
      [.bytes opening, .bytes continuation] (.failed "gone") (World.start ⟨[]⟩ none)
      (lasting_quitting (by simp))
    have hevents : turns.map Turn.event = [.start ⟨none, none, none⟩, .token ⟨"a"⟩] := by
      have hcalls : (calls (actsFrom quitting 0 [.bytes opening, .bytes continuation]
          (.failed "gone") (World.start ⟨[]⟩ none))).map Prod.fst =
            [.start ⟨none, none, none⟩, .token ⟨"a"⟩] := by
        decide +kernel
      rwa [hhistory.calls_eq, List.map_map] at hcalls
    obtain ⟨first, second, rfl⟩ : ∃ first second, turns = [first, second] := by
      rw [← List.length_eq_two, ← List.length_map Turn.event, hevents]
      rfl
    obtain ⟨-, htoken⟩ : first.event = .start ⟨none, none, none⟩ ∧ second.event = .token ⟨"a"⟩ := by
      simpa using hevents
    change History _ _ _ _ _ ([first] ++ second :: []) _ _ at hhistory
    have hcancelled : second.nextWorld.clock.isCancelled = true := by
      obtain ⟨-, -, -, -, hrun, -⟩ := hhistory.at_turn
      rw [htoken] at hrun
      exact congrArg (fun made => made.2.clock.isCancelled) hrun.symm
    obtain ⟨-, report, -, -, -, hreport, hdispatched, -⟩ :=
      hcallback [first] second [] s' _ hhistory hcancelled
    exact ⟨report, hreport, hdispatched⟩
  · obtain ⟨-, -, -, hwaiting, -⟩ := calls_until_interruption quitting _ 0
      [.bytes opening, .wait interrupt, .bytes continuation] .closed (World.start ⟨[]⟩ none)
      (lasting_quitting (by simp))
    obtain ⟨report, hreport, htally⟩ :=
      hwaiting [.bytes opening] interrupt [.bytes continuation] rfl (by decide +kernel) rfl
    refine ⟨report, hreport, ?_⟩
    rw [htally.dispatched, ← List.length_map Prod.fst, htally.events]
    decide +kernel
  · obtain ⟨-, -, -, -, hfailed⟩ := calls_until_interruption quitting _ 0
      [.bytes opening] (.failed "gone") (World.start ⟨[]⟩ none) (lasting_quitting (by simp))
    exact (hfailed "gone" rfl (by decide +kernel)).1

end ChannelAdapter.Stream
