import ChannelAdapter.Stream.Dispatch
import ChannelAdapter.Proofs.Input
import ChannelAdapter.Proofs.Watch
/-!
What a dispatch does. It is watched in a world where callbacks, writes and whatever it waits for may
change anything. `Dispatches` says which acts it may consist of and what it gives, `History` how its
acts follow from one another and which callbacks are among them.
-/

namespace ChannelAdapter.Stream

inductive Act
  | checked (cancelled : Bool)
  | called (event : Event) (answer : Except ErrorChain Unit)
  | wrote (record : String) (answer : Except String Unit)

def event? : Input.Line → Option Event
  | .overlong => none
  | .text bytes => if bytes.all isSpace then none else Event.ofLine? bytes

/-- Whether a line is counted, but as one that holds no event. -/
def isSkipped : Input.Line → Bool
  | .overlong => true
  | .text bytes => !bytes.all isSpace && (Event.ofLine? bytes).isNone

def faultRecord (chain : ErrorChain) : String :=
  Output.line (Status.union.codec.encode (.fault ⟨chain.message⟩))

/-! What dispatch may do. -/

inductive TakesLine (r : Report) : Input.Line → List Act → Report → Prop
  | blank {bytes : List UInt8} (hblank : bytes.all isSpace = true) :
      TakesLine r (.text bytes) [] r
  | skipped {line : Input.Line} (hskipped : isSkipped line = true) : TakesLine r line [] r.skip
  | called {line : Input.Line} {e : Event} (hevent : event? line = some e) :
      TakesLine r line [.called e (.ok ())] r.dispatch
  | failed {line : Input.Line} {e : Event} {chain : ErrorChain} {answer : Except String Unit}
      (hevent : event? line = some e) :
      TakesLine r line [.called e (.error chain), .wrote (faultRecord chain) answer] r.dispatch.fail

inductive Takes : Report → List Input.Line → List Act → Report → Prop
  | done {r : Report} : Takes r [] [] r
  | stopped {r : Report} {line : Input.Line} {lines : List Input.Line} :
      Takes r (line :: lines) [.checked true] r
  | taken {r r' r'' : Report} {line : Input.Line} {lines : List Input.Line} {acts more : List Act}
      (hline : TakesLine r line acts r') (hlines : Takes r' lines more r'') :
      Takes r (line :: lines) (.checked false :: (acts ++ more)) r''

/-- Lines that end in one piece after the other. A cancellation is noticed anew in each piece. -/
inductive TakesPieces : Report → List (List Input.Line) → List Act → Report → Prop
  | done {r : Report} : TakesPieces r [] [] r
  | taken {r r' r'' : Report} {lines : List Input.Line} {pieces : List (List Input.Line)}
      {acts more : List Act} (hlines : Takes r lines acts r')
      (hpieces : TakesPieces r' pieces more r'') :
      TakesPieces r (lines :: pieces) (acts ++ more) r''

inductive Finishes (r : Report) (last : Option Input.Line) :
    Input.Ending → List Act → Except Error Report → Prop
  | cancelled {ending : Input.Ending} : Finishes r last ending [.checked true] (.ok r)
  | failed {reason : String} :
      Finishes r last (.failed reason) [.checked false] (.error (.streamUnreadable reason))
  | silent : Finishes r last .silent [.checked false] (.ok r)
  | closed {r' : Report} {acts : List Act} (hlast : Takes r last.toList acts r') :
      Finishes r last .closed (.checked false :: acts) (.ok r')

inductive Dispatches (i : Input) : List Act → Except Error Report → Prop
  | finished {r : Report} {acts more : List Act} {result : Except Error Report}
      (hpieces : TakesPieces .empty (Input.batches Input.maxLine [] i.pieces) acts r)
      (hfinish :
        Finishes r (Input.lastLine? Input.maxLine i.pieces.flatten) i.ending more result) :
      Dispatches i (acts ++ more) result

/-! What dispatch does. -/

variable {σ ω : Type}

instance [MonadClock (StateM ω)] : MonadClock (Watched Act ω) where
  isCancelled := .noting .checked MonadClock.isCancelled
  sleep ms := StateT.lift (MonadClock.sleep ms)

instance [MonadOutput (StateM ω)] : MonadOutput (Watched Act ω) where
  put record := .noting (.wrote record) (MonadOutput.put record)

def watchedCall {α : Type} (kind : α → Event)
    (callback : α → StateT σ (StateM ω) (Except ErrorChain Unit)) (a : α) :
    StateT σ (Watched Act ω) (Except ErrorChain Unit) :=
  fun s => .noting (fun result => .called (kind a) result.1) ((callback a).run s)

/-- A handler whose calls are noted, each by the callback that is called. -/
def Handler.watched (h : Handler σ (StateM ω)) : Handler σ (Watched Act ω) where
  onStart := watchedCall .start h.onStart
  onToken := watchedCall .token h.onToken
  onTool := watchedCall .tool h.onTool
  onReasoning := watchedCall .reasoning h.onReasoning
  onFinish := watchedCall .finish h.onFinish
  onFailure := watchedCall .failure h.onFailure

theorem Handler.run_on_watched (h : Handler σ (StateM ω)) (e : Event) (s : σ) :
    (h.watched.on e).run s =
      .noting (fun result => .called e result.1) ((h.on e).run s) := by
  cases e <;> rfl

theorem shows_emit [MonadOutput (StateM ω)] (status : Status) (w : ω) :
    Watched.Shows (status.emit (m := Watched Act ω)) status.emit w
      fun _ acts w' => ∃ answer,
        acts = [.wrote (Output.line (Status.union.codec.encode status)) answer] ∧
        (MonadOutput.put (Output.line (Status.union.codec.encode status)) : StateM ω _).run w =
          (answer, w') := by
  rw [Status.emit, Status.emit, Output.write, Output.write, Output.writeMade, Output.writeMade]
  apply Watched.Shows.noting_bind
  intro answer w' hrun
  exact .pure ⟨answer, rfl, hrun⟩

/-- Acts after which a world that was alive still is. None of them has found the run cancelled. -/
def Quiet (alive : ω → Prop) (w : ω) (acts : List Act) (w' : ω) : Prop :=
  alive w → alive w' ∧ .checked true ∉ acts

section
variable {alive : ω → Prop} {w w' w'' : ω}

theorem quiet_nil : Quiet alive w [] w :=
  fun hw => ⟨hw, List.not_mem_nil⟩

theorem Quiet.append {acts more : List Act} (h : Quiet alive w acts w')
    (hmore : Quiet alive w' more w'') : Quiet alive w (acts ++ more) w'' := by
  intro hw
  obtain ⟨hw', hclear⟩ := h hw
  obtain ⟨hw'', hmoreClear⟩ := hmore hw'
  exact ⟨hw'', fun hmem => (List.mem_append.mp hmem).elim hclear hmoreClear⟩

theorem Quiet.cons {act : Act} {acts : List Act} (h : Quiet alive w [act] w')
    (hacts : Quiet alive w' acts w'') : Quiet alive w (act :: acts) w'' :=
  h.append hacts

end

/-! Histories. -/

/-- A callback that is made: what it finds and what it leaves. -/
structure Turn (σ ω : Type) where
  event : Event
  state : σ
  world : ω
  answer : Except ErrorChain Unit
  nextState : σ
  nextWorld : ω

variable [MonadClock (StateM ω)] [MonadOutput (StateM ω)]

/-- How acts take the state of a handler and a world along, and the callbacks among them. Between
two acts the world may change from outside. -/
inductive History (h : Handler σ (StateM ω)) (outside : ω → ω → Prop) :
    σ → ω → List Act → List (Turn σ ω) → σ → ω → Prop
  | nil {s : σ} {w : ω} : History h outside s w [] [] s w
  | checked {s s' : σ} {w w' w'' : ω} {cancelled : Bool} {acts : List Act}
      {turns : List (Turn σ ω)}
      (hrun : (MonadClock.isCancelled : StateM ω Bool).run w = (cancelled, w'))
      (hacts : History h outside s w' acts turns s' w'') :
      History h outside s w (.checked cancelled :: acts) turns s' w''
  | called {s s' s'' : σ} {w w' w'' : ω} {e : Event} {answer : Except ErrorChain Unit}
      {acts : List Act} {turns : List (Turn σ ω)}
      (hrun : ((h.on e).run s).run w = ((answer, s'), w'))
      (hacts : History h outside s' w' acts turns s'' w'') :
      History h outside s w (.called e answer :: acts) (⟨e, s, w, answer, s', w'⟩ :: turns) s'' w''
  | wrote {s s' : σ} {w w' w'' : ω} {record : String} {answer : Except String Unit}
      {acts : List Act} {turns : List (Turn σ ω)}
      (hrun : (MonadOutput.put record : StateM ω _).run w = (answer, w'))
      (hacts : History h outside s w' acts turns s' w'') :
      History h outside s w (.wrote record answer :: acts) turns s' w''
  | waited {s s' : σ} {w w' w'' : ω} {acts : List Act} {turns : List (Turn σ ω)}
      (hwait : outside w w') (hacts : History h outside s w' acts turns s' w'') :
      History h outside s w acts turns s' w''

def Leads (h : Handler σ (StateM ω)) (outside : ω → ω → Prop) (s : σ) (w : ω) (acts : List Act)
    (s' : σ) (w' : ω) : Prop :=
  ∃ turns, History h outside s w acts turns s' w'

section
variable {h : Handler σ (StateM ω)} {outside : ω → ω → Prop} {s s' s'' : σ} {w w' w'' : ω}
  {acts more : List Act}

theorem leads_nil : Leads h outside s w [] s w :=
  ⟨[], .nil⟩

theorem History.append {turns moreTurns : List (Turn σ ω)}
    (hacts : History h outside s w acts turns s' w')
    (hmore : History h outside s' w' more moreTurns s'' w'') :
    History h outside s w (acts ++ more) (turns ++ moreTurns) s'' w'' := by
  induction hacts with
  | nil => exact hmore
  | checked hrun _ ih => exact .checked hrun (ih hmore)
  | called hrun _ ih => exact .called hrun (ih hmore)
  | wrote hrun _ ih => exact .wrote hrun (ih hmore)
  | waited hwait _ ih => exact .waited hwait (ih hmore)

theorem Leads.append (hacts : Leads h outside s w acts s' w')
    (hmore : Leads h outside s' w' more s'' w'') : Leads h outside s w (acts ++ more) s'' w'' := by
  obtain ⟨turns, hacts⟩ := hacts
  obtain ⟨moreTurns, hmore⟩ := hmore
  exact ⟨turns ++ moreTurns, hacts.append hmore⟩

theorem Leads.checked {cancelled : Bool}
    (hrun : (MonadClock.isCancelled : StateM ω Bool).run w = (cancelled, w'))
    (hacts : Leads h outside s w' acts s' w'') :
    Leads h outside s w (.checked cancelled :: acts) s' w'' :=
  hacts.imp fun _ => .checked hrun

theorem Leads.waited (hwait : outside w w') (hacts : Leads h outside s w' acts s' w'') :
    Leads h outside s w acts s' w'' :=
  hacts.imp fun _ => .waited hwait

end

/-! What a dispatch shows. -/

section
variable {h : Handler σ (StateM ω)} {outside : ω → ω → Prop}

theorem shows_handle {line : Input.Line} {e : Event} (hevent : event? line = some e) (r : Report)
    (s : σ) (w : ω) :
    Watched.Shows (handle h.watched e r s) (handle h e r s) w
      fun result acts w' =>
        TakesLine r line acts result.1 ∧ Leads h outside s w acts result.2 w' := by
  rw [handle, handle, h.run_on_watched]
  apply Watched.Shows.noting_bind
  rintro ⟨answer, s'⟩ w' hrun
  cases answer with
  | ok _ => exact .pure ⟨.called hevent, _, .called hrun .nil⟩
  | error chain =>
      apply (shows_emit (.fault ⟨chain.message⟩) w').bind
      rintro _ acts w'' ⟨answer, rfl, hwrite⟩
      exact .pure ⟨.failed hevent, _, .called hrun (.wrote hwrite .nil)⟩

theorem shows_takeLine (r : Report) (s : σ) (line : Input.Line) (w : ω) :
    Watched.Shows (takeLine h.watched r s line) (takeLine h r s line) w
      fun result acts w' =>
        TakesLine r line acts result.1 ∧ Leads h outside s w acts result.2 w' := by
  cases line with
  | overlong => exact .pure ⟨.skipped rfl, leads_nil⟩
  | text bytes =>
      rw [takeLine, takeLine]
      cases hblank : bytes.all isSpace with
      | true => exact .pure ⟨.blank hblank, leads_nil⟩
      | false =>
          cases hevent : Event.ofLine? bytes with
          | none =>
              exact .pure ⟨.skipped (by rw [isSkipped, hblank, hevent]; rfl), leads_nil⟩
          | some e =>
              apply shows_handle
              rw [event?, hblank, hevent]
              rfl

theorem shows_takeLines (r : Report) (s : σ) (lines : List Input.Line) (w : ω) :
    Watched.Shows (takeLines h.watched r s lines) (takeLines h r s lines) w
      fun result acts w' =>
        Takes r lines acts result.1 ∧ Leads h outside s w acts result.2 w' := by
  induction lines generalizing r s w with
  | nil => exact .pure ⟨.done, leads_nil⟩
  | cons line lines ih =>
      rw [takeLines, takeLines]
      apply Watched.Shows.noting_bind
      intro cancelled w' hrun
      cases cancelled with
      | true => exact .pure ⟨.stopped, leads_nil.checked hrun⟩
      | false =>
          apply (shows_takeLine r s line w').bind
          rintro ⟨r', s'⟩ acts w'' ⟨hline, hacts⟩
          apply (ih r' s' w'').mono
          rintro result more w''' ⟨hlines, hmore⟩
          exact ⟨.taken hline hlines, (hacts.append hmore).checked hrun⟩

theorem shows_takePiece {raw : List UInt8} (hraw : Input.newline ∉ raw) (r : Report) (s : σ)
    (piece : List UInt8) (w : ω) :
    Watched.Shows (takePiece h.watched ⟨.holding Input.maxLine raw, r, s⟩ piece)
      (takePiece h ⟨.holding Input.maxLine raw, r, s⟩ piece) w
      fun p acts w' => p.reader = .holding Input.maxLine (Input.split (raw ++ piece)).2 ∧
        Takes r ((Input.split (raw ++ piece)).1.map (Input.lineOf Input.maxLine)) acts p.report ∧
        Leads h outside s w acts p.state w' := by
  rw [takePiece, takePiece, Input.Reader.feed_holding _ hraw]
  dsimp only
  rw [List.append_nil, List.reverse_reverse]
  apply (shows_takeLines r s _ w).bind
  rintro ⟨r', s'⟩ acts w' hlines
  refine .pure ⟨rfl, ?_⟩
  rw [List.append_nil]
  exact hlines

end

/-! What comes in time. -/

/-- A moment for a watched program. What happens while it waits is not noted. -/
def watchedMoment : Input.Moment (StateM ω) → Input.Moment (Watched Act ω)
  | .bytes piece => .bytes piece
  | .wait x => .wait (liftM x)

def Waits (moments : List (Input.Moment (StateM ω))) (w w' : ω) : Prop :=
  ∃ x, .wait x ∈ moments ∧ (x.run w).2 = w'

section
variable {h : Handler σ (StateM ω)} {outside : ω → ω → Prop}

theorem shows_moments {raw : List UInt8} (hraw : Input.newline ∉ raw) (r : Report) (s : σ)
    (moments : List (Input.Moment (StateM ω)))
    (houtside : ∀ w w', Waits moments w w' → outside w w') (w : ω) :
    Watched.Shows
      ((moments.map watchedMoment).foldlM (Input.Moment.take (takePiece h.watched))
        ⟨.holding Input.maxLine raw, r, s⟩)
      (moments.foldlM (Input.Moment.take (takePiece h)) ⟨.holding Input.maxLine raw, r, s⟩) w
      fun p acts w' =>
        p.reader = .holding Input.maxLine
          (Input.split (raw ++ (moments.filterMap Input.Moment.piece?).flatten)).2 ∧
        TakesPieces r (Input.batches Input.maxLine raw (moments.filterMap Input.Moment.piece?)) acts
          p.report ∧
        Leads h outside s w acts p.state w' := by
  -- the bytes after the last newline go on into the next piece, so `raw` varies
  induction moments generalizing raw r s w with
  | nil =>
      refine .pure ⟨?_, .done, leads_nil⟩
      rw [List.filterMap_nil, List.flatten_nil, List.append_nil, Input.split_of_not_mem hraw]
  | cons moment moments ih =>
      rw [List.map_cons, List.foldlM_cons, List.foldlM_cons]
      have hlater : ∀ w w', Waits moments w w' → outside w w' := by
        rintro w w' ⟨x, hx, hrun⟩
        exact houtside w w' ⟨x, List.mem_cons_of_mem _ hx, hrun⟩
      cases moment with
      | bytes piece =>
          apply (shows_takePiece hraw r s piece w).bind
          rintro ⟨reader, r', s'⟩ acts w' ⟨rfl, hlines, hacts⟩
          apply (ih (Input.newline_not_mem_split (raw ++ piece)) r' s' hlater w').mono
          rintro p more w'' ⟨hreader, hpieces, hmore⟩
          rw [List.filterMap_cons, Input.Moment.piece?, List.flatten_cons, ← List.append_assoc,
            Input.split_append (raw ++ piece)]
          exact ⟨hreader, .taken hlines hpieces, hacts.append hmore⟩
      | wait x =>
          rw [watchedMoment, Input.Moment.take, Input.Moment.take, bind_assoc, bind_assoc]
          apply (Watched.Shows.lift x).bind
          rintro _ _ w' ⟨rfl, hrun⟩
          rw [pure_bind, pure_bind]
          apply (ih hraw r s hlater w').mono
          rintro p more w'' ⟨hreader, hpieces, hmore⟩
          have hwait : outside w w' := houtside w w' ⟨x, List.mem_cons_self, by rw [hrun]⟩
          exact ⟨hreader, hpieces, hmore.waited hwait⟩

theorem shows_finish (p : Progress σ) (ending : Input.Ending) (w : ω) :
    Watched.Shows (finish h.watched p ending) (finish h p ending) w
      fun result acts w' =>
        Finishes p.report (p.reader.last Input.maxLine) ending acts result ∧
        ∃ s', Leads h outside p.state w acts s' w' := by
  unfold finish
  apply Watched.Shows.noting_bind
  intro cancelled w' hrun
  have hcheck : Leads h outside p.state w [.checked cancelled] p.state w' := leads_nil.checked hrun
  cases cancelled with
  | true => exact .pure ⟨.cancelled, _, hcheck⟩
  | false =>
      cases ending with
      | failed reason => exact .pure ⟨.failed, _, hcheck⟩
      | silent => exact .pure ⟨.silent, _, hcheck⟩
      | closed =>
          apply (shows_takeLines p.report p.state _ w').bind
          rintro ⟨r, s⟩ acts w'' ⟨hlast, hacts⟩
          apply Watched.Shows.pure
          rw [List.append_nil]
          exact ⟨.closed hlast, s, hacts.checked hrun⟩

theorem shows_dispatchFrom (s : σ) (moments : List (Input.Moment (StateM ω)))
    (houtside : ∀ w w', Waits moments w w' → outside w w') (ending : Input.Ending) (w : ω) :
    Watched.Shows (dispatchFrom (Input.timed (moments.map watchedMoment) ending) h.watched s)
      (dispatchFrom (Input.timed moments ending) h s) w
      fun result acts w' => Dispatches (Input.received moments ending) acts result ∧
        ∃ s', Leads h outside s w acts s' w' := by
  simp only [dispatchFrom, Input.timed, bind_assoc, pure_bind,
    Input.Reader.start_eq_holding Input.maxLine]
  apply (shows_moments List.not_mem_nil .empty s moments houtside w).bind
  rintro ⟨reader, r, s'⟩ acts w' ⟨rfl, hpieces, hacts⟩
  apply (shows_finish _ ending w').mono
  rintro result more w'' ⟨hfinish, s'', hmore⟩
  rw [Input.Reader.last_holding] at hfinish
  exact ⟨.finished hpieces hfinish, s'', hacts.append hmore⟩

theorem shows_whole (s : σ) (i : Input) (w : ω) :
    Watched.Shows (dispatch h.watched s i) (dispatch h s i) w
      fun result acts w' =>
        Dispatches i acts result ∧ ∃ s', Leads h (fun _ _ => False) s w acts s' w' := by
  have hnever : ∀ w w' : ω, Waits (i.pieces.map .bytes) w w' → False := by
    rintro w w' ⟨x, hx, -⟩
    obtain ⟨piece, -, hpiece⟩ := List.mem_map.mp hx
    cases hpiece
  have hshows := shows_dispatchFrom (h := h) s (i.pieces.map .bytes) hnever i.ending w
  rw [Input.received_bytes, List.map_map] at hshows
  simp only [dispatch, dispatchFrom, Input.source_eq_timed] at hshows ⊢
  exact hshows

end

/-! Runs that no one cancels. -/

/-- In a world that is alive the run is not cancelled, and neither callbacks nor writes end that. -/
structure Uncancelled (alive : ω → Prop) (h : Handler σ (StateM ω)) : Prop where
  check {w w' : ω} {cancelled : Bool} (hw : alive w)
    (hrun : (MonadClock.isCancelled : StateM ω Bool).run w = (cancelled, w')) :
    cancelled = false ∧ alive w'
  call {w w' : ω} {e : Event} {s : σ} {result : Except ErrorChain Unit × σ} (hw : alive w)
    (hrun : ((h.on e).run s).run w = (result, w')) : alive w'
  write {w w' : ω} {record : String} {answer : Except String Unit} (hw : alive w)
    (hrun : (MonadOutput.put record : StateM ω _).run w = (answer, w')) : alive w'

section
variable {alive : ω → Prop} {w w' : ω} {h : Handler σ (StateM ω)} (hquiet : Uncancelled alive h)
include hquiet

theorem Uncancelled.quiet_check {cancelled : Bool}
    (hrun : (MonadClock.isCancelled : StateM ω Bool).run w = (cancelled, w')) :
    Quiet alive w [.checked cancelled] w' := by
  intro hw
  obtain ⟨rfl, hw'⟩ := hquiet.check hw hrun
  exact ⟨hw', by simp⟩

theorem Uncancelled.quiet_call {e : Event} {s : σ} {result : Except ErrorChain Unit × σ}
    (hrun : ((h.on e).run s).run w = (result, w')) : Quiet alive w [.called e result.1] w' :=
  fun hw => ⟨hquiet.call hw hrun, by simp⟩

theorem Uncancelled.quiet_write {record : String} {answer : Except String Unit}
    (hrun : (MonadOutput.put record : StateM ω _).run w = (answer, w')) :
    Quiet alive w [.wrote record answer] w' :=
  fun hw => ⟨hquiet.write hw hrun, by simp⟩

theorem History.quiet {turns : List (Turn σ ω)} {s s' : σ} {acts : List Act}
    (hacts : History h (fun _ _ => False) s w acts turns s' w') : Quiet alive w acts w' := by
  induction hacts with
  | nil => exact quiet_nil
  | checked hrun _ ih => exact (hquiet.quiet_check hrun).cons ih
  | called hrun _ ih => exact (hquiet.quiet_call hrun).cons ih
  | wrote hrun _ ih => exact (hquiet.quiet_write hrun).cons ih
  | waited hwait => exact hwait.elim

theorem shows_dispatch (s : σ) (i : Input) (w : ω) :
    Watched.Shows (dispatch h.watched s i) (dispatch h s i) w
      fun result acts w' => Dispatches i acts result ∧ Quiet alive w acts w' := by
  apply (shows_whole s i w).mono
  rintro result acts w' ⟨hdispatches, s', turns, hacts⟩
  exact ⟨hdispatches, hacts.quiet hquiet⟩

end

variable (h : Handler σ (StateM ω)) (s : σ) (i : Input) (w : ω)

def acts : List Act :=
  (((dispatch h.watched s i).run []).run w).1.2

theorem dispatch_watched :
    ((dispatch h.watched s i).run []).run w =
      ((((dispatch h s i).run w).1, acts h s i w), ((dispatch h s i).run w).2) :=
  (shows_whole s i w).run_watched

def actsFrom (moments : List (Input.Moment (StateM ω))) (ending : Input.Ending) (w : ω) :
    List Act :=
  (((dispatchFrom (Input.timed (moments.map watchedMoment) ending) h.watched s).run []).run w).1.2

end ChannelAdapter.Stream
