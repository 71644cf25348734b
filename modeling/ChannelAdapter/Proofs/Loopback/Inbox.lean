import ChannelAdapter.Loopback
import ChannelAdapter.Proofs.Monitor.Emission
import ChannelAdapter.Proofs.Text.Line
/-!
The inbox as a monitor reads it. While it grows by whole lines, each line that is no blank one
becomes one event, however the polls fall between the lines and whichever of them fail.
-/

namespace ChannelAdapter.Loopback

namespace Inbox

/-- What an event says of the line that it is made from. -/
structure Message where
  id : String
  metadata : Option (List (String × Json))
  content : String

def Message.ofEvent (e : Event) : Message :=
  ⟨e.id, e.metadata, e.content⟩

def Message.ofLine (line : List Char × Nat) : Message :=
  ⟨s!"loopback:inbox:{line.2}", some [("line", .int line.2)], String.ofList line.1⟩

def messagesFrom (n : Nat) (ls : List (List Char)) : List Message :=
  ((ls.zipIdx (n + 1)).filter fun line => !line.1.all Text.isBlank).map .ofLine

def messages (content : String) : List Message :=
  messagesFrom 0 (lines content)

theorem messagesFrom_append (n : Nat) (ls more : List (List Char)) :
    messagesFrom n (ls ++ more) = messagesFrom n ls ++ messagesFrom (n + ls.length) more := by
  rw [messagesFrom, List.zipIdx_append, List.filter_append, List.map_append, Nat.add_right_comm]
  rfl

theorem messagesFrom_cons (n : Nat) (line : List Char) (ls : List (List Char)) :
    messagesFrom n (line :: ls) =
      if line.all Text.isBlank then messagesFrom (n + 1) ls
      else .ofLine (line, n + 1) :: messagesFrom (n + 1) ls := by
  rw [messagesFrom, List.zipIdx_cons, List.filter_cons]
  cases line.all Text.isBlank <;> rfl

section
variable (account : String) (modified : Int) {cursor n : Nat} {ls : List (List Char)}

theorem ofEvent_event (line : List Char) :
    Message.ofEvent (event account modified n line) = .ofLine (line, n) :=
  rfl

theorem eventsFrom_append (n : Nat) (ls more : List (List Char)) :
    eventsFrom account modified cursor n (ls ++ more) =
      eventsFrom account modified cursor n ls ++
        eventsFrom account modified cursor (n + ls.length) more := by
  induction ls generalizing n with
  | nil => rfl
  | cons line ls ih =>
      have hlength : n + (line :: ls).length = n + 1 + ls.length := by
        rw [List.length_cons]
        omega
      rw [List.cons_append, eventsFrom, eventsFrom, ih, hlength]
      split <;> rfl

theorem eventsFrom_of_le (h : n + ls.length ≤ cursor) :
    eventsFrom account modified cursor n ls = [] := by
  induction ls generalizing n with
  | nil => rfl
  | cons line ls ih =>
      rw [List.length_cons] at h
      have hread : n + 1 ≤ cursor := by omega
      rw [eventsFrom, ih (by omega)]
      simp [hread]

theorem map_ofEvent_eventsFrom (h : cursor ≤ n) :
    (eventsFrom account modified cursor n ls).map Message.ofEvent = messagesFrom n ls := by
  induction ls generalizing n with
  | nil => rfl
  | cons line ls ih =>
      have hnew : ¬ n + 1 ≤ cursor := by omega
      rw [eventsFrom, messagesFrom_cons, ← ih (Nat.le_succ_of_le h)]
      cases hblank : line.all Text.isBlank with
      | true => simp
      | false => simp [hnew, ofEvent_event]

end

/-- A content that ends with a line, if it is not empty. -/
def Whole (content : String) : Prop :=
  content.toList = [] ∨ Text.endsLine content.toList = true

theorem lines_append {content more : String} (h : Whole content) :
    lines (content ++ more) = lines content ++ lines more := by
  rw [lines, String.toList_append, Text.lines_append h, List.map_append]
  rfl

theorem Whole.append {content more : String} (h : Whole content) (hmore : Whole more) :
    Whole (content ++ more) := by
  rw [Whole, String.toList_append]
  rcases hmore with hnil | hends
  · rw [hnil, List.append_nil]
    exact h
  · right
    rwa [Text.endsLine_append (Text.ne_nil_of_endsLine hends)]

/-! Contents to which something is added. -/

section
variable {content : String} (more : String)

theorem lines_append_of_not_whole (h : ¬ Whole content) :
    ∃ front last longer rest, lines content = front ++ [last] ∧
      lines (content ++ more) = front ++ longer :: rest := by
  obtain ⟨hne, hcut⟩ := not_or.mp h
  obtain ⟨front, last, longer, rest, hlines, -, hmore⟩ :=
    Text.lines_append_of_cut hne (Bool.eq_false_iff.mpr hcut) more.toList
  refine ⟨front.map Text.chompLine, Text.chompLine last, Text.chompLine (last ++ longer),
    rest.map Text.chompLine, ?_, ?_⟩
  · rw [lines, hlines, List.map_append]
    rfl
  · rw [lines, String.toList_append, hmore, List.map_append]
    rfl

theorem length_lines_append : (lines content).length ≤ (lines (content ++ more)).length := by
  by_cases hwhole : Whole content
  · rw [lines_append hwhole, List.length_append]
    exact Nat.le_add_right _ _
  · obtain ⟨front, last, longer, rest, hlines, hmore⟩ := lines_append_of_not_whole more hwhole
    simp [hlines, hmore]

end

/-- Each text that is read is the one before, with something added to it. -/
inductive Extends : String → List (Except FileError String) → Prop
  | nil (content : String) : Extends content []
  | unreadable {content : String} {e : FileError} {readings : List (Except FileError String)}
      (h : Extends content readings) : Extends content (.error e :: readings)
  | read {content text : String} {readings : List (Except FileError String)} (more : String)
      (htext : text = content ++ more) (h : Extends text readings) :
      Extends content (.ok text :: readings)

/-- Each text that is read is the one before, with whole lines added to it. -/
inductive Grows : String → List (Except FileError String) → Prop
  | nil (content : String) : Grows content []
  | unreadable {content : String} {e : FileError} {readings : List (Except FileError String)}
      (h : Grows content readings) : Grows content (.error e :: readings)
  | read {content text : String} {readings : List (Except FileError String)} (more : String)
      (htext : text = content ++ more) (hmore : Whole more) (h : Grows text readings) :
      Grows content (.ok text :: readings)

def lastText (content : String) (readings : List (Except FileError String)) : String :=
  (readings.filterMap Except.toOption).getLastD content

theorem lastText_read (content text : String) (readings : List (Except FileError String)) :
    lastText content (.ok text :: readings) = lastText text readings := by
  have hread : Except.toOption (.ok text : Except FileError String) = some text := rfl
  rw [lastText, List.filterMap_cons_some hread, List.getLastD_cons, lastText]

/-- What a fetch after a cursor answers to what it reads. -/
inductive Answers (account : String) :
    Nat × Except ErrorChain (Monitor.Batch Nat Event) → Except FileError String → Prop
  | unreadable {cursor : Nat} {chain : ErrorChain} {e : FileError} :
      Answers account (cursor, .error chain) (.error e)
  | read {cursor : Nat} (modified : Int) (text : String) :
      Answers account
        (cursor, .ok ⟨events account modified cursor text, some (lines text).length⟩) (.ok text)

/-- The lines that have been seen after some readings, each as it stood at first, where `ls` are the
ones seen before. -/
def seenAfter (ls : List (List Char)) : List (Except FileError String) → List (List Char)
  | [] => ls
  | .error _ :: readings => seenAfter ls readings
  | .ok text :: readings => seenAfter (ls ++ (lines text).drop ls.length) readings

theorem length_seen {content : String} {ls : List (List Char)}
    (hls : ls.length = (lines content).length) (more : String) :
    (ls ++ (lines (content ++ more)).drop ls.length).length = (lines (content ++ more)).length := by
  have hle := @length_lines_append content more
  rw [List.length_append, List.length_drop]
  omega

theorem messages_seen (account : String) (modified : Int) {text : String} {ls : List (List Char)}
    (hle : ls.length ≤ (lines text).length) :
    messagesFrom 0 ls ++ (events account modified ls.length text).map Message.ofEvent =
      messagesFrom 0 (ls ++ (lines text).drop ls.length) := by
  have hsplit : lines text = (lines text).take ls.length ++ (lines text).drop ls.length :=
    (List.take_append_drop _ _).symm
  have htake : ((lines text).take ls.length).length = ls.length := by
    rw [List.length_take, Nat.min_eq_left hle]
  rw [events, hsplit, eventsFrom_append, eventsFrom_of_le _ _ (by omega), List.nil_append, htake,
    map_ofEvent_eventsFrom _ _ (by omega), ← hsplit, messagesFrom_append]

theorem cursorAfter_of_le {a b : Nat} (h : a ≤ b) (es : List Event) :
    Monitor.cursorAfter a [.ok ⟨es, some b⟩] = b := by
  rw [← Monitor.next_eq_cursorAfter, Cursor.next]
  cases hunset : Cursor.isUnset b with
  | false => rfl
  | true =>
      -- an unset cursor is zero, and then the cursor before it was zero, too
      have hzero : b = 0 := beq_iff_eq.mp hunset
      rw [if_pos rfl]
      omega

theorem messages_seenAfter {account content : String} {ls : List (List Char)}
    {calls : List (Nat × Except ErrorChain (Monitor.Batch Nat Event))}
    {readings : List (Except FileError String)} (hextends : Extends content readings)
    (hls : ls.length = (lines content).length) (hfollows : Monitor.Follows ls.length calls)
    (hanswers : List.Forall₂ (Answers account) calls readings) :
    messagesFrom 0 ls ++ (calls.flatMap fun call => Monitor.eventsOf call.2).map Message.ofEvent =
      messagesFrom 0 (seenAfter ls readings) := by
  induction hextends generalizing calls ls with
  | nil =>
      cases hanswers
      exact List.append_nil _
  | unreadable _ ih =>
      cases hanswers with
      | @cons call _ calls _ hanswer hanswers =>
          cases hanswer
          have hrest := ih hls hfollows.tail hanswers
          exact hrest
  | @read content text readings more htext _ ih =>
      subst htext
      have hseen := length_seen hls more
      have hle : ls.length ≤ (lines (content ++ more)).length := hls ▸ length_lines_append more
      cases hanswers with
      | @cons call _ calls _ hanswer hanswers =>
          cases hanswer with
          | read modified =>
              cases hfollows.head
              have hrest := hfollows.tail
              rw [cursorAfter_of_le hle, ← hseen] at hrest
              rw [List.flatMap_cons, List.map_append, ← List.append_assoc, Monitor.eventsOf,
                messages_seen account modified hle, ih hseen hrest hanswers, seenAfter]

theorem Grows.extends {content : String} {readings : List (Except FileError String)}
    (h : Grows content readings) : Extends content readings := by
  induction h with
  | nil content => exact .nil content
  | unreadable _ ih => exact .unreadable ih
  | read more htext _ _ ih => exact .read more htext ih

theorem Grows.seenAfter_eq {content : String} {readings : List (Except FileError String)}
    (h : Grows content readings) (hwhole : Whole content) :
    seenAfter (lines content) readings = lines (lastText content readings) := by
  induction h with
  | nil => rfl
  | unreadable _ ih => exact ih hwhole
  | read more htext hmore _ ih =>
      subst htext
      rw [lastText_read, ← ih (hwhole.append hmore), seenAfter, lines_append hwhole,
        List.drop_left]

theorem messages_of_calls {account content : String}
    {calls : List (Nat × Except ErrorChain (Monitor.Batch Nat Event))}
    {readings : List (Except FileError String)} (hgrows : Grows content readings)
    (hwhole : Whole content) (hfollows : Monitor.Follows (lines content).length calls)
    (hanswers : List.Forall₂ (Answers account) calls readings) :
    messages content ++ (calls.flatMap fun call => Monitor.eventsOf call.2).map Message.ofEvent =
      messages (lastText content readings) := by
  rw [messages, messages_seenAfter hgrows.extends rfl hfollows hanswers,
    hgrows.seenAfter_eq hwhole, messages]

end Inbox

/-! What a monitor of the inbox does. -/

section
variable {ω : Type} [MonadFiles (StateM ω)] [MonadOutput (StateM ω)] [MonadClock (StateM ω)]
  (path account : String)

def readings (w : ω) : List (Monitor.Act Nat Event) → List (Except FileError String)
  | [] => []
  | act :: acts =>
      let w' := ((act.perform (fetch path account) emit).run w).2
      match act with
      | .fetched _ _ => ((readText path : StateM ω _).run w).1 :: readings w' acts
      | _ => readings w' acts

omit [MonadOutput (StateM ω)] [MonadClock (StateM ω)] in
theorem answers_fetch (cursor : Nat) (w : ω) :
    Inbox.Answers account (cursor, ((fetch path account cursor : StateM ω _).run w).1)
      ((readText path : StateM ω _).run w).1 := by
  rw [fetch, StateT.run_bind, Inbox.read, StateT.run_bind]
  cases h : (readText path : StateM ω _).run w with
  | mk reading w' =>
      cases reading with
      | error e => exact .unreadable
      | ok text => exact .read ((MonadFiles.modified path : StateM ω Int).run w').1 text

theorem answers_acts {w w' : ω} {acts : List (Monitor.Act Nat Event)}
    (h : Watched.Path (Monitor.Act.perform (fetch path account) emit) w acts w') :
    List.Forall₂ (Inbox.Answers account) (Monitor.fetches acts) (readings path account w acts) := by
  induction h with
  | nil => exact .nil
  | @cons w w' w'' act acts hact _ ih =>
      have hworld : w' = ((act.perform (fetch path account) emit).run w).2 := by rw [hact]
      cases act with
      | fetched cursor answer =>
          have hanswer : answer = ((fetch path account cursor : StateM ω _).run w).1 := by
            rw [Monitor.Act.perform, StateT.run_map] at hact
            cases hact
            rfl
          subst hworld hanswer
          exact .cons (answers_fetch path account cursor w) ih
      | checked | emitted | slept =>
          subst hworld
          exact ih

def monitorActs (ctx : AdapterContext) (w : ω) : List (Monitor.Act Nat Event) :=
  Monitor.acts (fetch path account) emit (pollConfig ctx) maxPolls (.start 0) w

theorem run_monitor {ctx : AdapterContext} (hinbox : inbox ctx = .ok path)
    (hinterval : 0 < (pollConfig ctx).interval) (hretry : (pollConfig ctx).retry = .unbounded)
    {w : ω} (htaken : ∀ event e, .emitted event (.error e) ∉ monitorActs path account ctx w) :
    (monitor ctx account : StateM ω _).run w =
      (.ok (), Watched.replay (Monitor.Act.perform (fetch path account) emit) w
        (monitorActs path account ctx w)) := by
  have hcheck : (pollConfig ctx).check = .ok () := if_neg (Nat.ne_of_gt hinterval)
  have hends : Monitor.Ends (pollConfig ctx) (monitorActs path account ctx w) _ :=
    (Monitor.runs_acts (fetch path account) emit (pollConfig ctx) maxPolls (.start 0) w).ends
  have hpath : Watched.Path (Monitor.Act.perform (fetch path account) emit) w
      (monitorActs path account ctx w) _ :=
    Monitor.path_acts (fetch path account) emit (pollConfig ctx) maxPolls (.start 0) w
  rw [monitor, hinbox, hcheck]
  dsimp only
  rw [StateT.run_bind, ← hpath.eq_replay]
  generalize (Monitor.run (pollConfig ctx) (fetch path account) emit maxPolls
    (.start 0) : StateM ω (Monitor.Outcome Nat)).run w = ended at hends ⊢
  obtain ⟨outcome, w'⟩ := ended
  generalize monitorActs path account ctx w = acts at hends htaken
  cases hends with
  | stopped => rfl
  | spent => rfl
  | refused acts =>
      exact absurd (List.mem_append_right acts (List.mem_singleton_self _)) (htaken _ _)
  | exhausted _ hexhausted =>
      rw [hretry] at hexhausted
      cases hexhausted

/-- While the inbox grows by whole lines, or cannot be read, each of its lines that is not blank
becomes one event, in order, whenever the monitor is cancelled. -/
theorem messages_of_inbox {ctx : AdapterContext} (hinbox : inbox ctx = .ok path)
    (hinterval : 0 < (pollConfig ctx).interval) (hretry : (pollConfig ctx).retry = .unbounded)
    (w : ω) (htaken : ∀ event e, .emitted event (.error e) ∉ monitorActs path account ctx w)
    (hgrows : Inbox.Grows "" (readings path account w (monitorActs path account ctx w))) :
    (monitor ctx account : StateM ω _).run w =
        (.ok (), Watched.replay (Monitor.Act.perform (fetch path account) emit) w
          (monitorActs path account ctx w)) ∧
      (Monitor.emissions (monitorActs path account ctx w)).map
          (fun emission => Inbox.Message.ofEvent emission.1) =
        Inbox.messages (Inbox.lastText "" (readings path account w
          (monitorActs path account ctx w))) := by
  have hruns := Monitor.runs_acts (fetch path account) emit (pollConfig ctx) maxPolls (.start 0) w
  have hpath := Monitor.path_acts (fetch path account) emit (pollConfig ctx) maxPolls (.start 0) w
  have hemissions := hruns.delivers.emissions_eq htaken
  have hmessages := Inbox.messages_of_calls hgrows (.inl rfl) hruns.follows.1
    (answers_acts path account hpath)
  refine ⟨run_monitor path account hinbox hinterval hretry htaken, ?_⟩
  rw [monitorActs, hemissions, List.map_map, ← monitorActs, ← hmessages]
  rfl

end

theorem taken_of_all {acts : List (Monitor.Act Nat Event)}
    (h : (Monitor.emissions acts).all (·.2.isOk) = true) :
    ∀ event e, .emitted event (.error e) ∉ acts := by
  intro event e hmem
  cases List.all_eq_true.mp h (event, .error e) (List.mem_filterMap.mpr ⟨_, hmem, rfl⟩)

/-- A world with one file, whose contents last until the next sleep, or cannot be read. The monitor
is cancelled when there are no more. -/
structure Board where
  contents : List (Option String)
  deriving DecidableEq

instance : MonadFiles (StateM Board) where
  read _ := return match (← get).contents.head? with
    | some (some text) => .ok text.toUTF8
    | _ => .error .notFound
  modified _ := return 0
  pathExists _ := return true
  append _ _ := return .error .notFound

instance : MonadOutput (StateM Board) where
  put _ := return .ok ()

instance : MonadClock (StateM Board) where
  isCancelled := return (← get).contents.isEmpty
  sleep _ := modify fun w => ⟨w.contents.tail⟩

def board : Board :=
  ⟨[none, some "", some "one\n\n", none, some "one\n\ntwo\r\n \nthree\n"]⟩

def boardContext : AdapterContext :=
  ⟨some ⟨none, "loopback", "default", [("inbox", .string "board")], none⟩⟩

theorem messages_of_inbox_board :
    (monitor boardContext "default" : StateM Board _).run board = (.ok (), ⟨[]⟩) ∧
      (Monitor.emissions (monitorActs "board" "default" boardContext board)).map
          (fun emission => emission.1.id) =
        ["loopback:inbox:1", "loopback:inbox:3", "loopback:inbox:5"] := by
  have hreadings : readings "board" "default" board
      (monitorActs "board" "default" boardContext board) =
        [.error .notFound, .ok "", .ok "one\n\n", .error .notFound,
          .ok "one\n\ntwo\r\n \nthree\n"] := by
    decide +kernel
  have hgrows : Inbox.Grows "" (readings "board" "default" board
      (monitorActs "board" "default" boardContext board)) := by
    rw [hreadings]
    apply Inbox.Grows.unreadable
    apply Inbox.Grows.read "" (by decide +kernel) (.inl rfl)
    apply Inbox.Grows.read "one\n\n" (by decide +kernel) (.inr (by decide +kernel))
    apply Inbox.Grows.unreadable
    apply Inbox.Grows.read "two\r\n \nthree\n" (by decide +kernel) (.inr (by decide +kernel))
    apply Inbox.Grows.nil
  have htaken : ∀ event e, .emitted event (.error e) ∉
      monitorActs "board" "default" boardContext board :=
    taken_of_all (by decide +kernel)
  have hinbox : inbox boardContext = .ok "board" := rfl
  obtain ⟨hrun, hmessages⟩ :=
    messages_of_inbox "board" "default" hinbox (by decide) rfl board htaken hgrows
  refine ⟨hrun.trans (congrArg (Prod.mk _) (by decide +kernel)), ?_⟩
  have hids := congrArg (List.map Inbox.Message.id) hmessages
  rw [List.map_map, hreadings] at hids
  apply hids.trans
  decide +kernel

end ChannelAdapter.Loopback
