import ChannelAdapter.Proofs.Stream.Run
import ChannelAdapter.World
/-!
Which callbacks a stream leads to. The lines of its bytes determine them: each line with an event
leads to the callback for it, whatever the callbacks before it have answered. `Reading` says what is
known of some lines if the run may be found cancelled while they are taken.
-/

namespace ChannelAdapter.Stream

/-! Calls among acts. -/

def Act.call? : Act → Option (Event × Except ErrorChain Unit)
  | .called e answer => some (e, answer)
  | _ => none

def calls (acts : List Act) : List (Event × Except ErrorChain Unit) :=
  acts.filterMap Act.call?

section
variable (acts more : List Act)

@[simp] theorem calls_nil : calls [] = [] := rfl

@[simp] theorem calls_checked (cancelled : Bool) :
    calls (.checked cancelled :: acts) = calls acts := rfl

@[simp] theorem calls_called (e : Event) (answer : Except ErrorChain Unit) :
    calls (.called e answer :: acts) = (e, answer) :: calls acts := rfl

@[simp] theorem calls_wrote (record : String) (answer : Except String Unit) :
    calls (.wrote record answer :: acts) = calls acts := rfl

@[simp] theorem calls_append : calls (acts ++ more) = calls acts ++ calls more :=
  List.filterMap_append

end

/-! Calls of a history. -/

section
variable {σ ω : Type}

def Turn.call (t : Turn σ ω) : Event × Except ErrorChain Unit :=
  (t.event, t.answer)

theorem History.calls_eq [MonadClock (StateM ω)] [MonadOutput (StateM ω)]
    {h : Handler σ (StateM ω)} {outside : ω → ω → Prop} {s s' : σ} {w w' : ω} {acts : List Act}
    {turns : List (Turn σ ω)} (hacts : History h outside s w acts turns s' w') :
    calls acts = turns.map Turn.call := by
  induction hacts with
  | nil => rfl
  | checked _ _ ih => exact ih
  | called _ _ ih =>
      rw [calls_called, ih]
      rfl
  | wrote _ _ ih => exact ih
  | waited _ _ ih => exact ih

end

/-! What reports count. -/

def isFailed (call : Event × Except ErrorChain Unit) : Bool :=
  match call.2 with
  | .ok _ => false
  | .error _ => true

/-- What taking some lines adds to a report, and the calls that it makes. -/
structure Tally (lines : List Input.Line) (acts : List Act) (before after : Report) : Prop where
  events : (calls acts).map Prod.fst = lines.filterMap event?
  dispatched : after.dispatched = before.dispatched + (calls acts).length
  skipped : after.skipped = before.skipped + lines.countP isSkipped
  lines : after.lines = before.lines + (calls acts).length + lines.countP isSkipped
  handlerErrors : after.handlerErrors = before.handlerErrors + (calls acts).countP isFailed

section
variable {lines moreLines : List Input.Line} {acts more : List Act} {r r' r'' : Report}

theorem tally_nil (r : Report) : Tally [] [] r r :=
  ⟨rfl, rfl, rfl, rfl, rfl⟩

theorem tally_of_calls_eq_nil (h : calls acts = []) (r : Report) : Tally [] acts r r := by
  constructor <;> simp [h]

theorem Tally.append (h : Tally lines acts r r') (hmore : Tally moreLines more r' r'') :
    Tally (lines ++ moreLines) (acts ++ more) r r'' where
  events := by
    rw [calls_append, List.map_append, List.filterMap_append, h.events, hmore.events]
  dispatched := by
    rw [calls_append, List.length_append, hmore.dispatched, h.dispatched, Nat.add_assoc]
  skipped := by
    rw [List.countP_append, hmore.skipped, h.skipped, Nat.add_assoc]
  lines := by
    rw [calls_append, List.length_append, List.countP_append, hmore.lines, h.lines]
    omega
  handlerErrors := by
    rw [calls_append, List.countP_append, hmore.handlerErrors, h.handlerErrors, Nat.add_assoc]

theorem Tally.checked (h : Tally lines acts r r') (cancelled : Bool) :
    Tally lines (.checked cancelled :: acts) r r' :=
  ⟨h.events, h.dispatched, h.skipped, h.lines, h.handlerErrors⟩

theorem event?_of_isSkipped {line : Input.Line} (h : isSkipped line = true) :
    event? line = none := by
  cases line with
  | overlong => rfl
  | text bytes =>
      rw [isSkipped, Bool.and_eq_true, Option.isNone_iff_eq_none] at h
      rw [event?, h.2, ite_self]

theorem isSkipped_of_event? {line : Input.Line} {e : Event} (h : event? line = some e) :
    isSkipped line = false := by
  cases hskipped : isSkipped line with
  | false => rfl
  | true => cases (event?_of_isSkipped hskipped).symm.trans h

theorem TakesLine.tally {line : Input.Line} (h : TakesLine r line acts r') :
    Tally [line] acts r r' := by
  cases h with
  | @blank bytes hblank =>
      have hevent : event? (.text bytes) = none := by rw [event?, hblank, if_pos rfl]
      have hskipped : isSkipped (.text bytes) = false := by rw [isSkipped, hblank]; rfl
      constructor <;> simp [hevent, hskipped]
  | skipped hskipped =>
      have hevent := event?_of_isSkipped hskipped
      constructor <;> simp [hevent, hskipped, Report.skip]
  | called hevent =>
      have hskipped := isSkipped_of_event? hevent
      constructor <;> simp [hevent, hskipped, isFailed, Report.dispatch]
  | failed hevent =>
      have hskipped := isSkipped_of_event? hevent
      constructor <;> simp [hevent, hskipped, isFailed, Report.dispatch, Report.fail]

end

/-! Lines that are taken unless a cancellation is noticed. -/

/-- What follows from the acts that take some lines, by what the checks among them find. -/
structure Reading (lines : List Input.Line) (acts : List Act) (before after : Report) : Prop where
  counted : ∃ taken, taken.Sublist lines ∧ Tally taken acts before after
  clear (hclear : .checked true ∉ acts) : Tally lines acts before after
  stopped (hstopped : .checked false ∉ acts) : calls acts = [] ∧ after = before
  guarded {front back : List Act} {e : Event} {answer : Except ErrorChain Unit}
    (hacts : acts = front ++ .called e answer :: back) :
    ∃ checks, front = checks ++ [.checked false]
  /-- If no check after a call lets the run go on, its line is the last one that is taken. -/
  lastCall {front back : List Act} {e : Event} {answer : Except ErrorChain Unit}
    (hacts : acts = front ++ .called e answer :: back) (hfront : .checked true ∉ front)
    (hback : .checked false ∉ back) :
    calls back = [] ∧ ∃ taken line rest, lines = taken ++ line :: rest ∧ event? line = some e ∧
      Tally (taken ++ [line]) acts before after

section
variable {lines moreLines : List Input.Line} {acts more : List Act} {r r' r'' : Report}

theorem reading_nil (r : Report) : Reading [] [] r r where
  counted := ⟨[], .refl [], tally_nil r⟩
  clear _ := tally_nil r
  stopped _ := ⟨rfl, rfl⟩
  guarded hacts := absurd hacts (by simp)
  lastCall hacts := absurd hacts (by simp)

theorem checked_ne_call {cancelled : Bool} {front back : List Act} {e : Event}
    {answer : Except ErrorChain Unit} :
    [.checked cancelled] ≠ front ++ .called e answer :: back := by
  cases front <;> simp

theorem reading_checked (r : Report) (cancelled : Bool) : Reading [] [.checked cancelled] r r where
  counted := ⟨[], .refl [], (tally_nil r).checked cancelled⟩
  clear _ := (tally_nil r).checked cancelled
  stopped _ := ⟨rfl, rfl⟩
  guarded hacts := absurd hacts checked_ne_call
  lastCall hacts := absurd hacts checked_ne_call

theorem reading_stopped (lines : List Input.Line) (r : Report) :
    Reading lines [.checked true] r r where
  counted := ⟨[], List.nil_sublist lines, (tally_nil r).checked true⟩
  clear hclear := absurd List.mem_cons_self hclear
  stopped _ := ⟨rfl, rfl⟩
  guarded hacts := absurd hacts checked_ne_call
  lastCall hacts := absurd hacts checked_ne_call

theorem append_eq_around {α : Type} {xs ys front back : List α} {a : α}
    (h : xs ++ ys = front ++ a :: back) :
    (∃ mid, xs = front ++ a :: mid ∧ back = mid ++ ys) ∨
      ∃ mid, front = xs ++ mid ∧ ys = mid ++ a :: back := by
  obtain ⟨mid, hfront, hys⟩ | ⟨mid, hxs, hback⟩ := List.append_eq_append_iff.mp h
  · exact .inr ⟨mid, hfront, hys⟩
  · cases mid with
    | nil => exact .inr ⟨[], by simpa using hxs.symm, hback.symm⟩
    | cons b mid =>
        cases hback
        exact .inl ⟨mid, hxs, rfl⟩

theorem Reading.append (h : Reading lines acts r r') (hmore : Reading moreLines more r' r'') :
    Reading (lines ++ moreLines) (acts ++ more) r r'' where
  counted := by
    obtain ⟨taken, htaken, htally⟩ := h.counted
    obtain ⟨moreTaken, hmoreTaken, hmoreTally⟩ := hmore.counted
    exact ⟨taken ++ moreTaken, htaken.append hmoreTaken, htally.append hmoreTally⟩
  clear hclear := by
    rw [List.mem_append, not_or] at hclear
    exact (h.clear hclear.1).append (hmore.clear hclear.2)
  stopped hstopped := by
    rw [List.mem_append, not_or] at hstopped
    obtain ⟨hcalls, rfl⟩ := h.stopped hstopped.1
    obtain ⟨hmoreCalls, rfl⟩ := hmore.stopped hstopped.2
    exact ⟨by rw [calls_append, hcalls, hmoreCalls, List.nil_append], rfl⟩
  guarded hacts := by
    obtain ⟨mid, rfl, rfl⟩ | ⟨mid, rfl, rfl⟩ := append_eq_around hacts
    · exact h.guarded rfl
    · obtain ⟨checks, rfl⟩ := hmore.guarded rfl
      exact ⟨acts ++ checks, (List.append_assoc ..).symm⟩
  lastCall hacts hfront hback := by
    obtain ⟨mid, rfl, rfl⟩ | ⟨mid, rfl, rfl⟩ := append_eq_around hacts
    · -- the call is among the first acts, and those after them take nothing
      rw [List.mem_append, not_or] at hback
      obtain ⟨hmid, taken, line, rest, rfl, hevent, htally⟩ := h.lastCall rfl hfront hback.1
      obtain ⟨hmoreCalls, rfl⟩ := hmore.stopped hback.2
      refine ⟨by rw [calls_append, hmid, hmoreCalls, List.nil_append], taken, line,
        rest ++ moreLines, by rw [List.append_assoc, List.cons_append], hevent, ?_⟩
      rw [← List.append_nil (taken ++ [line])]
      exact htally.append (tally_of_calls_eq_nil hmoreCalls r'')
    · rw [List.mem_append, not_or] at hfront
      obtain ⟨hcalls, taken, line, rest, rfl, hevent, htally⟩ := hmore.lastCall rfl hfront.2 hback
      refine ⟨hcalls, lines ++ taken, line, rest, by rw [List.append_assoc], hevent, ?_⟩
      rw [List.append_assoc]
      exact (h.clear hfront.1).append htally

theorem TakesLine.eq_of_call {line : Input.Line} (h : TakesLine r line acts r')
    {front back : List Act} {e : Event} {answer : Except ErrorChain Unit}
    (hacts : acts = front ++ .called e answer :: back) :
    front = [] ∧ calls back = [] ∧ event? line = some e := by
  cases h with
  | blank | skipped => simp at hacts
  | called hevent =>
      cases front with
      | nil =>
          cases hacts
          exact ⟨rfl, rfl, hevent⟩
      | cons act front => simp at hacts
  | failed hevent =>
      cases front with
      | nil =>
          cases hacts
          exact ⟨rfl, rfl, hevent⟩
      | cons act front => cases front <;> simp at hacts

theorem TakesLine.reading {line : Input.Line} (h : TakesLine r line acts r') :
    Reading [line] (.checked false :: acts) r r' where
  counted := ⟨[line], .refl [line], h.tally.checked false⟩
  clear _ := h.tally.checked false
  stopped hstopped := absurd List.mem_cons_self hstopped
  guarded {front _ _ _} hacts := by
    cases front with
    | nil => cases hacts
    | cons act front =>
        cases hacts
        obtain ⟨rfl, -, -⟩ := h.eq_of_call rfl
        exact ⟨[], rfl⟩
  lastCall {front _ _ _} hacts _ _ := by
    have htally := h.tally.checked false
    cases front with
    | nil => cases hacts
    | cons act front =>
        cases hacts
        obtain ⟨-, hcalls, hevent⟩ := h.eq_of_call rfl
        exact ⟨hcalls, [], line, [], rfl, hevent, htally⟩

theorem Takes.reading (h : Takes r lines acts r') : Reading lines acts r r' := by
  induction h with
  | done => exact reading_nil _
  | stopped => exact reading_stopped _ _
  | taken hline _ ih => exact hline.reading.append ih

theorem TakesPieces.reading {pieces : List (List Input.Line)} (h : TakesPieces r pieces acts r') :
    Reading pieces.flatten acts r r' := by
  induction h with
  | done => exact reading_nil _
  | taken hlines _ ih => exact hlines.reading.append ih

/-! What a dispatch gives. -/

theorem Finishes.reading {last : Option Input.Line} {ending : Input.Ending}
    (h : Finishes r last ending acts (.ok r')) :
    Reading (ending.finalLines last) acts r r' := by
  cases h with
  | cancelled => exact reading_stopped _ _
  | silent => exact reading_checked _ false
  | closed hlast => exact (reading_checked _ false).append hlast.reading

theorem Dispatches.reading {i : Input} (h : Dispatches i acts (.ok r)) :
    Reading (Input.lines Input.maxLine i) acts .empty r := by
  cases h with
  | finished hpieces hfinish =>
      rw [Input.lines_eq_batches]
      exact hpieces.reading.append hfinish.reading

def outcome : Input.Ending → Report → Except Error Report
  | .failed reason, _ => .error (.streamUnreadable reason)
  | .closed, r | .silent, r => .ok r

theorem Finishes.whole {last : Option Input.Line} {ending : Input.Ending}
    {result : Except Error Report} (h : Finishes r last ending acts result)
    (hclear : .checked true ∉ acts) :
    ∃ r', result = outcome ending r' ∧ Tally (ending.finalLines last) acts r r' := by
  cases h with
  | cancelled => exact absurd List.mem_cons_self hclear
  | failed => exact ⟨r, rfl, (tally_nil r).checked false⟩
  | silent => exact ⟨r, rfl, (tally_nil r).checked false⟩
  | closed hlast =>
      have hlastClear := fun hmem => hclear (List.mem_cons_of_mem _ hmem)
      exact ⟨_, rfl, (hlast.reading.clear hlastClear).checked false⟩

theorem Dispatches.whole {i : Input} {result : Except Error Report} (h : Dispatches i acts result)
    (hclear : .checked true ∉ acts) :
    ∃ report, result = outcome i.ending report ∧
      Tally (Input.lines Input.maxLine i) acts .empty report := by
  cases h with
  | finished hpieces hfinish =>
      rw [List.mem_append, not_or] at hclear
      obtain ⟨report, hresult, hlast⟩ := hfinish.whole hclear.2
      rw [Input.lines_eq_batches]
      exact ⟨report, hresult, (hpieces.reading.clear hclear.1).append hlast⟩

theorem Dispatches.tally {pieces : List (List UInt8)} {result : Except Error Report}
    (h : Dispatches ⟨pieces, .closed⟩ acts result) (hclear : .checked true ∉ acts) :
    ∃ report, result = .ok report ∧
      Tally ((Input.rawLines pieces.flatten).map (Input.lineOf Input.maxLine)) acts .empty
        report := by
  obtain ⟨report, hresult, htally⟩ := h.whole hclear
  rw [Input.lines_closed] at htally
  exact ⟨report, hresult, htally⟩

theorem Dispatches.exists_of_error {i : Input} {e : Error} (h : Dispatches i acts (.error e)) :
    ∃ front, acts = front ++ [.checked false] := by
  cases h with
  | @finished _ front _ _ _ hfinish =>
      generalize i.ending = ending at hfinish
      cases hfinish with
      | failed => exact ⟨front, rfl⟩

end

variable {σ ω : Type} [MonadClock (StateM ω)] [MonadOutput (StateM ω)]
  {alive : ω → Prop} {h : Handler σ (StateM ω)}

/-- A stream that no one cancels is read to its end. Each of its lines that holds an event leads to
one call, in order; every other line is blank or counted as skipped. -/
theorem calls_of_lines (hquiet : Uncancelled alive h) (s : σ) (pieces : List (List UInt8)) (w : ω)
    (hw : alive w) :
    ∃ report, ((dispatch h s ⟨pieces, .closed⟩).run w).1 = .ok report ∧
      (calls (acts h s ⟨pieces, .closed⟩ w)).map Prod.fst =
        ((Input.rawLines pieces.flatten).map (Input.lineOf Input.maxLine)).filterMap event? ∧
      report.lines = report.dispatched + report.skipped ∧
      report.dispatched = (calls (acts h s ⟨pieces, .closed⟩ w)).length ∧
      report.skipped =
        ((Input.rawLines pieces.flatten).map (Input.lineOf Input.maxLine)).countP isSkipped := by
  obtain ⟨hdispatches, hacts⟩ := (shows_dispatch hquiet s ⟨pieces, .closed⟩ w).run_nil
  obtain ⟨report, hreport, htally⟩ := hdispatches.tally (hacts hw).2
  have hdispatched := htally.dispatched
  have hskipped := htally.skipped
  have hlines := htally.lines
  simp only [Report.empty, Nat.zero_add] at hdispatched hskipped hlines
  refine ⟨report, hreport, htally.events, ?_, hdispatched, hskipped⟩
  rw [hlines, hdispatched, hskipped]

def balking : Handler Nat World.Sim where
  onToken _ := do
    modify (· + 1)
    return .error (.ofText "busy")

theorem uncancelled_balking :
    Uncancelled (fun w => w.clock.isCancelled = false ∧ w.script = []) balking where
  check hw hrun := by
    cases hrun
    exact ⟨hw.1, hw⟩
  call {_ _ e _ _} hw hrun := by
    cases e <;> cases hrun <;> exact hw
  write hw hrun := by
    cases hrun
    simp [World.write, hw.1, hw.2]

/-- Two events among a blank line, a malformed one and one of an unknown type. Two of the lines are
cut. -/
def mixed : List (List UInt8) :=
  ["\n\x7b\"type\":\"token\",\"te", "xt\":\"a\"\x7d\r\n\x7boops\n\x7b\"type\":\"rain\"",
    "\x7d\n \n\x7b\"type\":\"stream_end\"\x7d"].map (·.toUTF8.toList)

theorem calls_of_lines_balking :
    (∃ report, ((dispatch balking 0 ⟨mixed, .closed⟩).run (World.start ⟨[]⟩ none)).1 = .ok report ∧
      report.lines = 4 ∧ report.dispatched = 2 ∧ report.skipped = 2) ∧
    (calls (acts balking 0 ⟨mixed, .closed⟩ (World.start ⟨[]⟩ none))).map Prod.fst =
      [.token ⟨"a"⟩, .finish ⟨none, false⟩] := by
  obtain ⟨report, hreport, hevents, hlines, hdispatched, hskipped⟩ :=
    calls_of_lines uncancelled_balking 0 mixed (World.start ⟨[]⟩ none) ⟨rfl, rfl⟩
  have htwo :
      ((Input.rawLines mixed.flatten).map (Input.lineOf Input.maxLine)).filterMap event? =
        [.token ⟨"a"⟩, .finish ⟨none, false⟩] := by
    decide +kernel
  have hothers :
      ((Input.rawLines mixed.flatten).map (Input.lineOf Input.maxLine)).countP isSkipped = 2 := by
    decide +kernel
  rw [htwo] at hevents
  rw [hothers] at hskipped
  rw [← List.length_map Prod.fst, hevents] at hdispatched
  rw [hdispatched, hskipped] at hlines
  exact ⟨⟨report, hreport, hlines, hdispatched, hskipped⟩, hevents⟩

end ChannelAdapter.Stream
