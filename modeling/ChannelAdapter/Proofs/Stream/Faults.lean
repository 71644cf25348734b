import ChannelAdapter.Proofs.Stream.Calls
/-!
What is written during a dispatch. A callback emits statuses of its own; if it fails, the fault is
written right after them. What could be written has no influence on what is done next.
-/

namespace ChannelAdapter.Stream

variable {σ ω : Type}

def Status.line (status : Status) : String :=
  Output.line (Status.union.codec.encode status)

def faultLine (chain : ErrorChain) : String :=
  Output.line (.object [("type", .string "delivery_error"), ("error", .string chain.message)])

theorem faultRecord_eq (chain : ErrorChain) : faultRecord chain = faultLine chain :=
  rfl

/-! Sinks. -/

section
variable [MonadOutput (StateM ω)]

/-- A sink that takes every record, or none. -/
structure Sink (written : ω → List String) (works : Bool) : Prop where
  answer (record : String) (w : ω) :
    ((MonadOutput.put record : StateM ω _).run w).1.isOk = works
  written (record : String) (w : ω) :
    written ((MonadOutput.put record : StateM ω _).run w).2 =
      written w ++ if works then [record] else []

/-- What a program emits. Whatever it does besides leaves the sink alone. -/
inductive Emits (written : ω → List String) {α : Type} : StateM ω α → ω → List Status → Prop
  | pure (a : α) (w : ω) : Emits written (pure a) w []
  | emit {status : Status} {next : Except Error Unit → StateM ω α} {w w' : ω}
      {answer : Except Error Unit} {said : List Status}
      (hrun : (status.emit : StateM ω _).run w = (answer, w'))
      (hnext : Emits written (next answer) w' said) :
      Emits written (status.emit >>= next) w (status :: said)
  | other {β : Type} {x : StateM ω β} {next : β → StateM ω α} {w w' : ω} {b : β}
      {said : List Status} (hrun : x.run w = (b, w')) (hwritten : written w' = written w)
      (hnext : Emits written (next b) w' said) : Emits written (x >>= next) w said

theorem Emits.written_eq {written : ω → List String} {works : Bool} (hsink : Sink written works)
    {α : Type} {x : StateM ω α} {w : ω} {said : List Status} (h : Emits written x w said) :
    written (x.run w).2 = written w ++ if works then said.map Status.line else [] := by
  induction h with
  | pure a w =>
      change written w = _
      simp
  | @emit status next w w' answer said hrun _ ih =>
      rw [run_bind_of_run hrun]
      have hline : written w' = written w ++ if works then [status.line] else [] := by
        rw [← hsink.written status.line w]
        exact congrArg (fun made => written made.2) hrun.symm
      rw [ih, hline]
      cases works <;> simp
  | @other β x next w w' b said hrun hwritten _ ih =>
      rw [run_bind_of_run hrun, ih, hwritten]

end

/-! Records among acts. -/

/-- Acts in which every failure is told at once, and nothing else is. -/
inductive Reported : List Act → Prop
  | nil : Reported []
  | checked {cancelled : Bool} {acts : List Act} (hacts : Reported acts) :
      Reported (.checked cancelled :: acts)
  | called {e : Event} {acts : List Act} (hacts : Reported acts) :
      Reported (.called e (.ok ()) :: acts)
  | failed {e : Event} {chain : ErrorChain} {answer : Except String Unit} {acts : List Act}
      (hacts : Reported acts) :
      Reported (.called e (.error chain) :: .wrote (faultRecord chain) answer :: acts)

section
variable {r r' : Report} {acts more : List Act}

theorem Reported.append (h : Reported acts) (hmore : Reported more) : Reported (acts ++ more) := by
  induction h with
  | nil => exact hmore
  | checked _ ih => exact .checked ih
  | called _ ih => exact .called ih
  | failed _ ih => exact .failed ih

theorem TakesLine.reported {line : Input.Line} (h : TakesLine r line acts r') : Reported acts := by
  cases h with
  | blank | skipped => exact .nil
  | called => exact .called .nil
  | failed => exact .failed .nil

theorem Takes.reported {lines : List Input.Line} (h : Takes r lines acts r') : Reported acts := by
  induction h with
  | done => exact .nil
  | stopped => exact .checked .nil
  | taken hline _ ih => exact .checked (hline.reported.append ih)

theorem TakesPieces.reported {pieces : List (List Input.Line)} (h : TakesPieces r pieces acts r') :
    Reported acts := by
  induction h with
  | done => exact .nil
  | taken hlines _ ih => exact hlines.reported.append ih

theorem Dispatches.reported {i : Input} {result : Except Error Report}
    (h : Dispatches i acts result) : Reported acts := by
  cases h with
  | finished hpieces hfinish =>
      apply hpieces.reported.append
      generalize i.ending = ending at hfinish
      cases hfinish with
      | cancelled | failed | silent => exact .checked .nil
      | closed hlast => exact .checked hlast.reported

end

/-! What a history writes. -/

section
variable [MonadClock (StateM ω)] [MonadOutput (StateM ω)]

/-- Handlers that reach the sink only through the statuses that they emit. -/
structure Speaks (written : ω → List String) (h : Handler σ (StateM ω)) : Prop where
  check (w : ω) : written ((MonadClock.isCancelled : StateM ω Bool).run w).2 = written w
  call (e : Event) (s : σ) (w : ω) : ∃ said, Emits written ((h.on e).run s) w said

def Turn.records (t : Turn σ ω) (said : List Status) : List String :=
  said.map Status.line ++
    match t.answer with
    | .ok _ => []
    | .error chain => [faultLine chain]

theorem Reported.written_eq {written : ω → List String} {h : Handler σ (StateM ω)}
    (hspeaks : Speaks written h) {acts : List Act} (hacts : Reported acts) {s s' : σ} {w w' : ω}
    {turns : List (Turn σ ω)} (hhistory : History h (fun _ _ => False) s w acts turns s' w') :
    ∃ said, List.Forall₂
        (fun t said => Emits written ((h.on t.event).run t.state) t.world said) turns said ∧
      ∀ works, Sink written works →
        written w' = written w ++
          if works then (List.zipWith Turn.records turns said).flatten else [] := by
  induction hacts generalizing s w turns with
  | nil =>
      cases hhistory with
      | nil => exact ⟨[], .nil, fun works _ => by simp⟩
      | waited hwait => exact hwait.elim
  | checked _ ih =>
      cases hhistory with
      | @checked _ _ _ w₁ _ _ _ _ hrun hmore =>
          obtain ⟨said, hemits, hwritten⟩ := ih hmore
          have hcheck : written w₁ = written w := by
            rw [← hspeaks.check w, hrun]
          rw [hcheck] at hwritten
          exact ⟨said, hemits, hwritten⟩
      | waited hwait => exact hwait.elim
  | called _ ih =>
      cases hhistory with
      | called hrun hmore =>
          obtain ⟨said, hemits, hwritten⟩ := ih hmore
          obtain ⟨first, hfirst⟩ := hspeaks.call _ s w
          refine ⟨first :: said, .cons hfirst hemits, ?_⟩
          intro works hsink
          have hcall := hfirst.written_eq hsink
          rw [hrun] at hcall
          rw [hwritten works hsink, hcall]
          cases works <;> simp [Turn.records]
      | waited hwait => exact hwait.elim
  | @failed e chain _ _ _ ih =>
      cases hhistory with
      | @called _ _ _ _ w₁ _ _ _ _ _ hrun hmore =>
          cases hmore with
          | wrote hwrite hmore =>
              obtain ⟨said, hemits, hwritten⟩ := ih hmore
              obtain ⟨first, hfirst⟩ := hspeaks.call _ s w
              refine ⟨first :: said, .cons hfirst hemits, ?_⟩
              intro works hsink
              have hcall := hfirst.written_eq hsink
              have hfault := hsink.written (faultRecord chain) w₁
              rw [hrun] at hcall
              rw [hwrite] at hfault
              rw [hwritten works hsink, hfault, hcall]
              cases works <;> simp [Turn.records, faultRecord_eq]
          | waited hwait => exact hwait.elim
      | waited hwait => exact hwait.elim

end

/-! What a dispatch is told. -/

def Act.isHeard : Act → Bool
  | .wrote _ _ => false
  | .checked _ | .called _ _ => true

def heard (acts : List Act) : List Act :=
  acts.filter Act.isHeard

section
variable (acts more : List Act)

@[simp] theorem heard_checked (cancelled : Bool) :
    heard (.checked cancelled :: acts) = .checked cancelled :: heard acts := rfl

@[simp] theorem heard_called (e : Event) (answer : Except ErrorChain Unit) :
    heard (.called e answer :: acts) = .called e answer :: heard acts := rfl

@[simp] theorem heard_wrote (record : String) (answer : Except String Unit) :
    heard (.wrote record answer :: acts) = heard acts := rfl

@[simp] theorem heard_append : heard (acts ++ more) = heard acts ++ heard more :=
  List.filter_append ..

theorem calls_heard : calls (heard acts) = calls acts := by
  rw [calls, calls, heard, List.filterMap_filter]
  apply List.filterMap_congr
  intro act _
  cases act <;> rfl

end

section
variable {r r₁ r₂ : Report} {acts acts' more more' : List Act}

theorem Tally.unique {lines : List Input.Line} (h : Tally lines acts r r₁)
    (h' : Tally lines acts' r r₂) (hcalls : calls acts = calls acts') : r₁ = r₂ := by
  have hlines := h.lines.trans (hcalls ▸ h'.lines.symm)
  have hdispatched := h.dispatched.trans (hcalls ▸ h'.dispatched.symm)
  have hskipped := h.skipped.trans h'.skipped.symm
  have herrors := h.handlerErrors.trans (hcalls ▸ h'.handlerErrors.symm)
  cases r₁
  cases r₂
  congr

theorem TakesLine.length_heard {line : Input.Line} (h : TakesLine r line acts r₁) :
    (heard acts).length = ([line].filterMap event?).length := by
  rw [← h.tally.events, List.length_map]
  cases h <;> rfl

theorem TakesLine.unique {line : Input.Line} (h : TakesLine r line acts r₁)
    (h' : TakesLine r line acts' r₂) (heq : heard (acts ++ more) = heard (acts' ++ more')) :
    r₁ = r₂ ∧ heard more = heard more' := by
  rw [heard_append, heard_append] at heq
  obtain ⟨hacts, hmore⟩ := List.append_inj heq (h.length_heard.trans h'.length_heard.symm)
  have hcalls : calls acts = calls acts' := by
    rw [← calls_heard, hacts, calls_heard]
  exact ⟨h.tally.unique h'.tally hcalls, hmore⟩

theorem Takes.unique {lines : List Input.Line} (h : Takes r lines acts r₁)
    (h' : Takes r lines acts' r₂) (heq : heard (acts ++ more) = heard (acts' ++ more')) :
    r₁ = r₂ ∧ heard more = heard more' := by
  induction h generalizing acts' with
  | done =>
      cases h'
      exact ⟨rfl, heq⟩
  | stopped =>
      cases h' with
      | stopped => exact ⟨rfl, by simpa using heq⟩
      | taken => simp at heq
  | taken hline _ ih =>
      cases h' with
      | stopped => simp at heq
      | taken hline' hlines' =>
          rw [List.cons_append, List.cons_append, heard_checked, heard_checked, List.cons.injEq,
            List.append_assoc, List.append_assoc] at heq
          obtain ⟨rfl, hrest⟩ := hline.unique hline' heq.2
          exact ih hlines' hrest

theorem TakesPieces.unique {pieces : List (List Input.Line)} (h : TakesPieces r pieces acts r₁)
    (h' : TakesPieces r pieces acts' r₂) (heq : heard (acts ++ more) = heard (acts' ++ more')) :
    r₁ = r₂ ∧ heard more = heard more' := by
  induction h generalizing acts' with
  | done =>
      cases h'
      exact ⟨rfl, heq⟩
  | taken hlines _ ih =>
      cases h' with
      | taken hlines' hpieces' =>
          rw [List.append_assoc, List.append_assoc] at heq
          obtain ⟨rfl, hrest⟩ := hlines.unique hlines' heq
          exact ih hpieces' hrest

theorem Finishes.unique {last : Option Input.Line} {ending : Input.Ending}
    {result result' : Except Error Report} (h : Finishes r last ending acts result)
    (h' : Finishes r last ending acts' result') (heq : heard acts = heard acts') :
    result = result' := by
  cases h with
  | cancelled =>
      cases h' with
      | cancelled => rfl
      | failed | silent | closed => simp at heq
  | failed =>
      cases h' with
      | cancelled => simp at heq
      | failed => rfl
  | silent =>
      cases h' with
      | cancelled => simp at heq
      | silent => rfl
  | @closed _ lastActs hlast =>
      cases h' with
      | cancelled => simp at heq
      | @closed _ lastActs' hlast' =>
          have htail : heard (lastActs ++ []) = heard (lastActs' ++ []) := by simpa using heq
          rw [(hlast.unique hlast' htail).1]

theorem Dispatches.unique {i : Input} {result result' : Except Error Report}
    (h : Dispatches i acts result) (h' : Dispatches i acts' result')
    (heq : heard acts = heard acts') : result = result' := by
  cases h with
  | finished hpieces hfinish =>
      cases h' with
      | finished hpieces' hfinish' =>
          obtain ⟨rfl, hrest⟩ := hpieces.unique hpieces' heq
          exact hfinish.unique hfinish' hrest

end

variable [MonadClock (StateM ω)] [MonadOutput (StateM ω)]

/-- Whatever a handler emits and however it fails, its faults are told among its statuses, each after
those of the callback that failed, and counted; the stream goes on. Whether anything can be written
does not matter for what is done: the same answers lead to the same report. -/
theorem faults_reported (written : ω → List String) (h : Handler σ (StateM ω)) (s : σ) (i : Input)
    (w : ω) (hspeaks : Speaks written h) :
    ∃ turns s' said,
      History h (fun _ _ => False) s w (acts h s i w) turns s' ((dispatch h s i).run w).2 ∧
      List.Forall₂ (fun t said => Emits written ((h.on t.event).run t.state) t.world said) turns
        said ∧
      (Sink written true → written ((dispatch h s i).run w).2 =
        written w ++ (List.zipWith Turn.records turns said).flatten) ∧
      (Sink written false → written ((dispatch h s i).run w).2 = written w) ∧
      (∀ report, ((dispatch h s i).run w).1 = .ok report →
        report.dispatched = turns.length ∧
        report.handlerErrors = (turns.map Turn.call).countP isFailed ∧
        report.handlerErrors ≤ report.dispatched) ∧
      (.checked true ∉ acts h s i w →
        turns.map Turn.event = (Input.lines Input.maxLine i).filterMap event? ∧
        ∃ report, ((dispatch h s i).run w).1 = outcome i.ending report ∧
          Tally (Input.lines Input.maxLine i) (acts h s i w) .empty report) ∧
      ∀ {σ' ω' : Type} [MonadClock (StateM ω')] [MonadOutput (StateM ω')]
        (h' : Handler σ' (StateM ω')) (s' : σ') (w' : ω'),
        heard (acts h' s' i w') = heard (acts h s i w) →
        ((dispatch h' s' i).run w').1 = ((dispatch h s i).run w).1 := by
  obtain ⟨hdispatches, s', turns, hhistory⟩ := (shows_whole (h := h) s i w).run_nil
  change Dispatches _ (acts h s i w) _ at hdispatches
  change History _ _ _ _ (acts h s i w) _ _ _ at hhistory
  obtain ⟨said, hemits, hwritten⟩ := hdispatches.reported.written_eq hspeaks hhistory
  have hcalls := hhistory.calls_eq
  refine ⟨turns, s', said, hhistory, hemits, ?_, ?_, ?_, ?_, ?_⟩
  · intro hsink
    simpa using hwritten true hsink
  · intro hsink
    simpa using hwritten false hsink
  · intro report hreport
    rw [hreport] at hdispatches
    obtain ⟨taken, -, htally⟩ := hdispatches.reading.counted
    have hdispatched := htally.dispatched
    have herrors := htally.handlerErrors
    rw [hcalls, Report.empty, Nat.zero_add] at hdispatched herrors
    rw [hdispatched, herrors]
    exact ⟨List.length_map _, rfl, List.countP_le_length⟩
  · intro hclear
    obtain ⟨report, hresult, htally⟩ := hdispatches.whole hclear
    have hevents := htally.events
    rw [hcalls, List.map_map] at hevents
    exact ⟨hevents, report, hresult, htally⟩
  · intro σ' ω' _ _ h' s' w' hheard
    have hother := (shows_whole (h := h') s' i w').run_nil.1
    exact hother.unique hdispatches hheard

/-- A place for records that keeps them only if it is open. -/
structure Tray (isOpen : Bool) where
  records : List String

section
variable {isOpen : Bool}

instance : MonadClock (StateM (Tray isOpen)) where
  isCancelled := return false
  sleep _ := return ()

instance : MonadOutput (StateM (Tray isOpen)) where
  put record := modifyGet fun w =>
    if isOpen then (.ok (), ⟨w.records ++ [record]⟩) else (.error "sink closed", w)

theorem sink_tray : Sink (Tray.records : Tray isOpen → _) isOpen where
  answer record w := by cases isOpen <;> rfl
  written record w := by
    cases isOpen with
    | true => rfl
    | false => exact (List.append_nil _).symm

/-- A handler that fails at a token, but only after it has told of a message. -/
def grumbling : Handler Unit (StateM (Tray isOpen)) where
  onToken d := do
    let _ ← (Status.emit (.created ⟨d.text⟩) : StateM (Tray isOpen) _)
    return .error ((ErrorChain.ofText "busy").wrap "edit")

theorem speaks_grumbling : Speaks (Tray.records : Tray isOpen → _) grumbling where
  check w := rfl
  call e s w := by
    cases e with
    | token d =>
        refine ⟨[.created ⟨d.text⟩], ?_⟩
        change Emits _ (Status.emit (.created ⟨d.text⟩) >>=
          fun _ => pure (Except.error ((ErrorChain.ofText "busy").wrap "edit"), s)) w _
        exact .emit rfl (.pure _ _)
    | start | tool | reasoning | finish | failure => exact ⟨[], .pure _ w⟩

theorem uncancelled_grumbling : Uncancelled (fun _ : Tray isOpen => True) grumbling where
  check _ hrun := by
    cases hrun
    exact ⟨rfl, trivial⟩
  call _ _ := trivial
  write _ _ := trivial

theorem clear_grumbling (i : Input) (w : Tray isOpen) : .checked true ∉ acts grumbling () i w :=
  ((shows_dispatch uncancelled_grumbling () i w).run_nil.2 trivial).2

end

theorem faults_reported_grumbling :
    (∃ turns said,
      turns.map Turn.event = [.token ⟨"a"⟩, .finish ⟨none, false⟩] ∧
      List.Forall₂ (fun t said =>
        Emits (Tray.records : Tray true → _) ((grumbling.on t.event).run t.state) t.world said) turns
        said ∧
      (List.zipWith Turn.records turns said).flatten =
        ["\x7b\"type\":\"message_created\",\"messageId\":\"a\"\x7d\n",
          "\x7b\"type\":\"delivery_error\",\"error\":\"edit: busy\"\x7d\n"]) ∧
    ((dispatch grumbling () ⟨mixed, .closed⟩).run (⟨[]⟩ : Tray false)).2.records = [] ∧
    ∃ report,
      ((dispatch grumbling () ⟨mixed, .closed⟩).run (⟨[]⟩ : Tray false)).1 = .ok report ∧
        report.dispatched = 2 ∧ report.handlerErrors = 1 := by
  refine ⟨?_, ?_⟩
  · obtain ⟨turns, s', said, hhistory, hemits, hopen, -, -, hwhole, -⟩ :=
      faults_reported Tray.records grumbling () ⟨mixed, .closed⟩ (⟨[]⟩ : Tray true) speaks_grumbling
    have hevents : (Input.lines Input.maxLine ⟨mixed, .closed⟩).filterMap event? =
        [.token ⟨"a"⟩, .finish ⟨none, false⟩] := by
      decide +kernel
    refine ⟨turns, said, (hwhole (clear_grumbling _ _)).1.trans hevents, hemits, ?_⟩
    have hwritten := hopen sink_tray
    rw [List.nil_append] at hwritten
    rw [← hwritten]
    decide +kernel
  · obtain ⟨turns, s', said, hhistory, -, -, hclosed, hcounts, hwhole, -⟩ :=
      faults_reported Tray.records grumbling () ⟨mixed, .closed⟩ (⟨[]⟩ : Tray false)
        speaks_grumbling
    obtain ⟨-, report, hreport, -⟩ := hwhole (clear_grumbling _ _)
    obtain ⟨hdispatched, herrors, -⟩ := hcounts report hreport
    rw [← List.length_map Turn.call, ← hhistory.calls_eq] at hdispatched
    rw [← hhistory.calls_eq] at herrors
    refine ⟨hclosed sink_tray, report, hreport, hdispatched.trans ?_, herrors.trans ?_⟩
    · decide +kernel
    · decide +kernel

end ChannelAdapter.Stream
