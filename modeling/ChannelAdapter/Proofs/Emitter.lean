import ChannelAdapter.Proofs.Json.Written
import ChannelAdapter.Proofs.Stream.Faults
import ChannelAdapter.Proofs.Text.Line
/-!
A writer, an emitter, and a clone of each. All four write to one output, and the two emitters count in
one cell; whatever fails, the output holds the records of the steps that have succeeded, and the count
is that of the events among them.
-/

namespace ChannelAdapter

namespace Emitter

/-- A world with the counts of its emitters. -/
structure Shared (ω : Type) where
  world : ω
  counts : List Emitter

/-- An emitter as it is handed around: the cell in which it counts. -/
structure Handle where
  cell : Nat

variable {ω : Type}

def Shared.create (s : Shared ω) : Handle × Shared ω :=
  (⟨s.counts.length⟩, { s with counts := s.counts ++ [start] })

namespace Handle

def clone (h : Handle) : Handle :=
  ⟨h.cell⟩

def count (h : Handle) (s : Shared ω) : Emitter :=
  s.counts.getD h.cell start

def emit [MonadOutput (StateM ω)] (h : Handle) (e : Event) :
    StateM (Shared ω) (Except Error Unit) := fun s =>
  let made := ((Emitter.emit e : StateT Emitter (StateM ω) _).run (h.count s)).run s.world
  (made.1.1, ⟨made.2, s.counts.set h.cell made.1.2⟩)

theorem count_set {h : Handle} {s : Shared ω} (hcell : h.cell < s.counts.length) (w : ω)
    (count : Emitter) : h.count ⟨w, s.counts.set h.cell count⟩ = count := by
  simp [Handle.count, hcell]

end Handle

/-- A writer has nothing of its own but its output. -/
def writeMade [MonadOutput (StateM ω)] (made : Except String Json) :
    StateM (Shared ω) (Except Error Unit) := fun s =>
  let written := (Output.writeMade made : StateM ω _).run s.world
  (written.1, { s with world := written.2 })

inductive Holder
  | original | clone

def Holder.pick (h : Handle) : Holder → Handle
  | .original => h
  | .clone => h.clone

/-- What is done next, and by whom. A record that cannot be made into a value is not written. -/
inductive Step
  | write (holder : Holder) (made : Except String Json)
  | emit (holder : Holder) (e : Event)

namespace Step

def run [MonadOutput (StateM ω)] (h : Handle) : Step → StateM (Shared ω) (Except Error Unit)
  | .write _ made => writeMade made
  | .emit holder e => (holder.pick h).emit e

def made : Step → Except String Json
  | .write _ made => made
  | .emit _ e => .ok (Event.record.codec.encode e)

def isEmit : Step → Bool
  | .write .. => false
  | .emit .. => true

def text (step : Step) : String :=
  (step.made.toOption.map Json.text).getD ""

end Step

/-! What a step leaves. -/

/-- A step that succeeds adds its line to the output, and counts if it emits; one that fails leaves
both as they are. -/
structure Leaves (written : ω → List String) (works : Bool) (h : Handle) (step : Step)
    (s : Shared ω) (result : Except Error Unit) (s' : Shared ω) : Prop where
  isOk : result.isOk = (works && step.made.isOk)
  written : written s'.world = written s.world ++ if result.isOk then [step.text ++ "\n"] else []
  emitted : (h.count s').emitted =
    (h.count s).emitted + if step.isEmit && result.isOk then 1 else 0
  cells : s'.counts.length = s.counts.length

def taken (steps : List Step) (results : List (Except Error Unit)) : List Step :=
  ((steps.zip results).filter fun done => done.2.isOk).map Prod.fst

structure Keeps (written : ω → List String) (works : Bool) (h : Handle) (steps : List Step)
    (s : Shared ω) (results : List (Except Error Unit)) (s' : Shared ω) : Prop where
  isOk : results.map Except.isOk = steps.map fun step => works && step.made.isOk
  written : written s'.world =
    written s.world ++ (taken steps results).map fun step => step.text ++ "\n"
  emitted : (h.count s').emitted = (h.count s).emitted + (taken steps results).countP Step.isEmit
  cells : s'.counts.length = s.counts.length

section
variable [MonadOutput (StateM ω)] {written : ω → List String} {works : Bool}
  (hsink : Stream.Sink written works)
include hsink

theorem written_ok (v : Json) (w : ω) {result : Except Error Unit} {w' : ω}
    (hrun : (Output.writeMade (.ok v) : StateM ω _).run w = (result, w')) :
    result.isOk = works ∧
      written w' = written w ++ if result.isOk then [v.text ++ "\n"] else [] := by
  have hanswer := hsink.answer (Output.line v) w
  have hwritten := hsink.written (Output.line v) w
  cases hput : (MonadOutput.put (Output.line v) : StateM ω _).run w with
  | mk answer next =>
      rw [hput] at hanswer hwritten
      have hmade : (Output.writeMade (.ok v) : StateM ω _).run w =
          (answer.mapError Error.io, next) := by
        rw [Output.writeMade, run_bind_of_run hput]
        rfl
      cases hrun.symm.trans hmade
      have hisOk : (answer.mapError Error.io).isOk = answer.isOk := by cases answer <;> rfl
      rw [hisOk, hanswer]
      exact ⟨rfl, hwritten⟩

omit hsink in
theorem run_emit (e : Event) (count : Emitter) (w : ω) {result : Except Error Unit} {w' : ω}
    (hrun : (Output.writeMade (.ok (Event.record.codec.encode e)) : StateM ω _).run w =
      (result, w')) :
    ((Emitter.emit e : StateT Emitter (StateM ω) _).run count).run w =
      ((result, if result.isOk then ⟨count.emitted + 1⟩ else count), w') := by
  have hwrite : (((Output.write Event.record.codec e : StateM ω (Except Error Unit)) :
      StateT Emitter (StateM ω) _).run count).run w = ((result, count), w') :=
    congrArg (fun written : Except Error Unit × ω => ((written.1, count), written.2)) hrun
  rw [Emitter.emit, StateT.run_bind, StateT.run_bind, hwrite]
  cases result <;> rfl

theorem leaves_step (h : Handle) (step : Step) (s : Shared ω) (hcell : h.cell < s.counts.length) :
    Leaves written works h step s ((step.run h).run s).1 ((step.run h).run s).2 := by
  cases step with
  | write holder made =>
      cases made with
      | error reason =>
          refine ⟨?_, ?_, rfl, rfl⟩
          · exact (Bool.and_false works).symm
          · exact (List.append_nil _).symm
      | ok v =>
          obtain ⟨hisOk, hwritten⟩ := written_ok hsink v s.world rfl
          refine ⟨?_, hwritten, rfl, rfl⟩
          exact hisOk.trans (Bool.and_true works).symm
  | emit holder e =>
      have hpick : holder.pick h = h := by cases holder <;> rfl
      obtain ⟨hisOk, hwritten⟩ := written_ok hsink (Event.record.codec.encode e) s.world rfl
      have hrun := run_emit e (h.count s) s.world rfl
      simp only [Step.run, hpick]
      change Leaves written works h (.emit holder e) s (Handle.emit h e s).1 (Handle.emit h e s).2
      rw [Handle.emit, hrun]
      refine ⟨hisOk.trans (Bool.and_true works).symm, hwritten, ?_, List.length_set⟩
      rw [Handle.count_set hcell, Step.isEmit, Bool.true_and]
      split <;> rfl

/-! What a run leaves. -/

omit hsink in
theorem taken_cons (step : Step) (steps : List Step) (result : Except Error Unit)
    (results : List (Except Error Unit)) :
    taken (step :: steps) (result :: results) =
      (if result.isOk then [step] else []) ++ taken steps results := by
  cases result <;> rfl

theorem keeps_run (h : Handle) (steps : List Step) (s : Shared ω)
    (hcell : h.cell < s.counts.length) :
    ∃ results s', (steps.mapM (Step.run h)).run s = (results, s') ∧
      Keeps written works h steps s results s' := by
  induction steps generalizing s with
  | nil => exact ⟨[], s, rfl, rfl, (List.append_nil _).symm, rfl, rfl⟩
  | cons step steps ih =>
      have hstep := leaves_step hsink h step s hcell
      cases hrun : (step.run h).run s with
      | mk result mid =>
          rw [hrun] at hstep
          obtain ⟨results, s', hruns, hkeeps⟩ := ih mid (hstep.cells ▸ hcell)
          refine ⟨result :: results, s', ?_, ?_, ?_, ?_, hkeeps.cells.trans hstep.cells⟩
          · rw [List.mapM_cons, run_bind_of_run hrun, run_bind_of_run hruns]
            rfl
          · rw [List.map_cons, List.map_cons, hstep.isOk, hkeeps.isOk]
          · rw [hkeeps.written, hstep.written, taken_cons, List.map_append, List.append_assoc]
            cases result <;> rfl
          · rw [hkeeps.emitted, hstep.emitted, taken_cons, List.countP_append, Nat.add_assoc]
            congr 2
            cases result with
            | error => exact if_neg (by simp [Except.isOk, Except.toBool])
            | ok => cases hemit : step.isEmit <;> simp [Except.isOk, Except.toBool, hemit]

omit hsink in
theorem lines_records (steps : List Step) :
    Text.lines ((steps.map fun step => step.text ++ "\n").flatMap String.toList) =
      steps.map fun step => step.text.toList ++ ['\n'] := by
  have hline (step : Step) : '\n' ∉ step.text.toList := by
    intro hmem
    rw [Step.text] at hmem
    cases hmade : step.made.toOption with
    | none => simp [hmade] at hmem
    | some v =>
        rw [hmade] at hmem
        exact absurd (v.noControls_text _ hmem) (by decide)
  induction steps with
  | nil => rfl
  | cons step steps ih =>
      have hnewline : "\n".toList = ['\n'] := rfl
      rw [List.map_cons, List.flatMap_cons, String.toList_append, hnewline, List.append_assoc,
        List.singleton_append, Text.lines_append_newline (hline step), ih, List.map_cons]

/-- However writers, emitters and failures take turns, the new lines of the output are the texts of the
steps that have succeeded, and both emitters tell the number of the events among them. A step that
fails changes neither. -/
theorem lines_of_steps (s : Shared ω) (steps : List Step) :
    ∃ results s', (steps.mapM (Step.run s.create.1)).run s.create.2 = (results, s') ∧
      results.map Except.isOk = steps.map (fun step => works && step.made.isOk) ∧
      written s'.world =
        written s.world ++ (taken steps results).map (fun step => step.text ++ "\n") ∧
      Text.lines (((taken steps results).map fun step => step.text ++ "\n").flatMap String.toList) =
        (taken steps results).map (fun step => step.text.toList ++ ['\n']) ∧
      (∀ holder : Holder, ((holder.pick s.create.1).count s').emitted =
        (taken steps results).countP Step.isEmit) ∧
      ∀ (step : Step) (e : Error) (s'' : Shared ω),
        (step.run s.create.1).run s' = (.error e, s'') →
          written s''.world = written s'.world ∧
          ∀ holder : Holder, ((holder.pick s.create.1).count s'').emitted =
            ((holder.pick s.create.1).count s').emitted := by
  have hpick (holder : Holder) : holder.pick s.create.1 = s.create.1 := by cases holder <;> rfl
  have hcell : s.create.1.cell < s.create.2.counts.length := by simp [Shared.create]
  have hstart : (s.create.1.count s.create.2).emitted = 0 := by
    simp [Shared.create, Handle.count, start]
  obtain ⟨results, s', hrun, hkeeps⟩ := keeps_run hsink s.create.1 steps s.create.2 hcell
  refine ⟨results, s', hrun, hkeeps.isOk, hkeeps.written, lines_records _, ?_, ?_⟩
  · intro holder
    rw [hpick, hkeeps.emitted, hstart, Nat.zero_add]
  · intro step e s'' hstep
    have hleaves := leaves_step hsink s.create.1 step s' (hkeeps.cells ▸ hcell)
    rw [hstep] at hleaves
    refine ⟨hleaves.written.trans (List.append_nil _), fun holder => ?_⟩
    rw [hpick, hleaves.emitted]
    simp [Except.isOk, Except.toBool]

end

/-- Two records that can be written, one that cannot, and events by both emitters. -/
def turns : List Step :=
  [.write .original (.ok (.int 1)), .emit .clone (Event.draft "irc" "irc:1"),
    .write .clone (Json.ofEntries [(.array [], .null)]),
    .emit .original (Event.draft "irc" "irc:2"), .write .clone (.ok .null)]

def used (isOpen : Bool) : Shared (Stream.Tray isOpen) :=
  ⟨⟨[]⟩, [⟨7⟩]⟩

theorem lines_of_steps_turns :
    (∃ results s', (turns.mapM (Step.run (used true).create.1)).run (used true).create.2 =
        (results, s') ∧
      results.map Except.isOk = [true, true, false, true, true] ∧
      s'.world.records.length = 4 ∧ s'.world.records.getLast? = some "null\n" ∧
      ∀ holder : Holder, ((holder.pick (used true).create.1).count s').emitted = 2) ∧
    ∃ results s', (turns.mapM (Step.run (used false).create.1)).run (used false).create.2 =
        (results, s') ∧
      s'.world.records = [] ∧
      ∀ holder : Holder, ((holder.pick (used false).create.1).count s').emitted = 0 := by
  constructor
  · obtain ⟨results, s', hrun, hok, hwritten, -, hcounts, -⟩ :=
      lines_of_steps Stream.sink_tray (used true) turns
    have hresults : results = _ := congrArg Prod.fst hrun.symm
    rw [hresults] at hwritten hcounts
    refine ⟨results, s', hrun, hok, ?_, ?_, hcounts⟩
    · rw [hwritten]
      rfl
    · rw [hwritten]
      rfl
  · obtain ⟨results, s', hrun, -, hwritten, -, hcounts, -⟩ :=
      lines_of_steps Stream.sink_tray (used false) turns
    have hresults : results = _ := congrArg Prod.fst hrun.symm
    rw [hresults] at hwritten hcounts
    exact ⟨results, s', hrun, hwritten, hcounts⟩

end Emitter

end ChannelAdapter
