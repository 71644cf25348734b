import ChannelAdapter.Proofs.Loopback.Inbox
/-!
An inbox that grows anywhere, also in the middle of a line. An event tells its line as it stood when
a poll saw it first, so that what is added to that line afterwards is never told.
-/

namespace ChannelAdapter.Loopback

namespace Inbox

/-- A content that stops before the end of its line with the index `i`. -/
def StopsIn (content : String) (i : Nat) : Prop :=
  ¬ Whole content ∧ (lines content).length = i + 1

/-- After a content, the first text that has a line with the index `i` has this line there. -/
def FirstSeen (content : String) (readings : List (Except FileError String)) (i : Nat)
    (line : List Char) : Prop :=
  ∃ before text after, readings = before ++ .ok text :: after ∧
    (lines (lastText content before)).length ≤ i ∧ (lines text)[i]? = some line

/-- Each line that is not blank is told as a whole, and nothing else is told. -/
structure Tells (ms : List Message) (content : String) : Prop where
  told : ∀ i line, (lines content)[i]? = some line → line.all Text.isBlank = false →
    Message.ofLine (line, i + 1) ∈ ms
  whole : ∀ m ∈ ms, ∃ i line, (lines content)[i]? = some line ∧ m = .ofLine (line, i + 1)

/-- Two lines that make no difference to what is told. -/
def Alike (first line : List Char) : Prop :=
  first = line ∨ first.all Text.isBlank = true ∧ line.all Text.isBlank = true

theorem getElem?_lines_append {content : String} (more : String) {i : Nat} {line : List Char}
    (hline : (lines content)[i]? = some line) :
    (lines (content ++ more))[i]? = some line ∨ StopsIn content i := by
  obtain ⟨hi, -⟩ := List.getElem?_eq_some_iff.mp hline
  by_cases hwhole : Whole content
  · left
    rw [lines_append hwhole, List.getElem?_append_left hi, hline]
  · obtain ⟨front, last, longer, rest, hlines, hmore⟩ := lines_append_of_not_whole more hwhole
    rw [hlines] at hi hline
    rw [List.length_append, List.length_singleton] at hi
    by_cases hlast : i = front.length
    · right
      exact ⟨hwhole, by rw [hlines, List.length_append, hlast]; rfl⟩
    · left
      have hfront : i < front.length := by omega
      rw [hmore, List.getElem?_append_left hfront]
      rwa [List.getElem?_append_left hfront] at hline

theorem Extends.exists_lastText {content : String} {readings : List (Except FileError String)}
    (h : Extends content readings) : ∃ more, lastText content readings = content ++ more := by
  induction h with
  | nil content => exact ⟨"", (String.append_empty).symm⟩
  | unreadable _ ih => exact ih
  | @read content text readings more htext _ ih =>
      obtain ⟨rest, hlast⟩ := ih
      exact ⟨more ++ rest, by rw [lastText_read, hlast, htext, String.append_assoc]⟩

/-! Lines that are seen first. -/

section
variable {content text : String} {readings : List (Except FileError String)} {e : FileError}
  {i : Nat} {line : List Char}

theorem not_firstSeen_nil : ¬ FirstSeen content [] i line := by
  rintro ⟨before, _, _, hsplit, -⟩
  cases before <;> cases hsplit

theorem firstSeen_unreadable :
    FirstSeen content (.error e :: readings) i line ↔ FirstSeen content readings i line := by
  constructor
  · rintro ⟨_ | ⟨reading, before⟩, text, after, hsplit, hnew, hline⟩
    · cases hsplit
    · cases hsplit
      exact ⟨before, text, after, rfl, hnew, hline⟩
  · rintro ⟨before, text, after, rfl, hnew, hline⟩
    exact ⟨.error e :: before, text, after, rfl, hnew, hline⟩

theorem firstSeen_read : FirstSeen content (.ok text :: readings) i line ↔
    (lines content).length ≤ i ∧ (lines text)[i]? = some line ∨ FirstSeen text readings i line := by
  constructor
  · rintro ⟨_ | ⟨reading, before⟩, text', after, hsplit, hnew, hline⟩
    · cases hsplit
      exact .inl ⟨hnew, hline⟩
    · cases hsplit
      rw [lastText_read] at hnew
      exact .inr ⟨before, text', after, rfl, hnew, hline⟩
  · rintro (⟨hnew, hline⟩ | ⟨before, text', after, rfl, hnew, hline⟩)
    · exact ⟨[], text, readings, rfl, hnew, hline⟩
    · exact ⟨.ok text :: before, text', after, rfl, by rwa [lastText_read], hline⟩

section
variable {ls : List (List Char)}

theorem length_seenAfter (h : Extends content readings) (hls : ls.length = (lines content).length) :
    (seenAfter ls readings).length = (lines (lastText content readings)).length := by
  induction h generalizing ls with
  | nil => exact hls
  | unreadable _ ih => exact ih hls
  | read more htext _ ih =>
      subst htext
      rw [lastText_read]
      exact ih (length_seen hls more)

theorem getElem?_seenAfter (h : Extends content readings)
    (hls : ls.length = (lines content).length) :
    (seenAfter ls readings)[i]? = some line ↔
      ls[i]? = some line ∨ FirstSeen content readings i line := by
  induction h generalizing ls with
  | nil => simp [seenAfter, not_firstSeen_nil]
  | unreadable _ ih => rw [firstSeen_unreadable, seenAfter, ih hls]
  | @read content text readings more htext _ ih =>
      subst htext
      have hseen : (ls ++ (lines (content ++ more)).drop ls.length)[i]? = some line ↔
          ls[i]? = some line ∨
            (lines content).length ≤ i ∧ (lines (content ++ more))[i]? = some line := by
        rw [← hls]
        rcases Nat.lt_or_ge i ls.length with hold | hnew
        · rw [List.getElem?_append_left hold]
          simp [Nat.not_le.mpr hold]
        · rw [List.getElem?_append_right hnew, List.getElem?_drop, Nat.add_sub_cancel' hnew]
          simp [hnew]
      rw [firstSeen_read, seenAfter, ih (length_seen hls more), hseen, or_assoc]

end

theorem FirstSeen.eq_or (h : FirstSeen content readings i line)
    (hextends : Extends content readings) :
    (lines (lastText content readings))[i]? = some line ∨
      ∃ text, .ok text ∈ readings ∧ StopsIn text i ∧ (lines text)[i]? = some line := by
  induction hextends with
  | nil => exact absurd h not_firstSeen_nil
  | unreadable _ ih =>
      refine (ih (firstSeen_unreadable.mp h)).imp_right ?_
      rintro ⟨text, hmem, hstops⟩
      exact ⟨text, .tail _ hmem, hstops⟩
  | @read content text readings more htext hrest ih =>
      rw [lastText_read]
      rcases firstSeen_read.mp h with ⟨-, hline⟩ | hlater
      · obtain ⟨rest, hlast⟩ := hrest.exists_lastText
        rw [hlast]
        refine (getElem?_lines_append rest hline).imp_right fun hstops => ?_
        exact ⟨text, List.mem_cons_self, hstops, hline⟩
      · refine (ih hlater).imp_right ?_
        rintro ⟨text', hmem, hstops⟩
        exact ⟨text', .tail _ hmem, hstops⟩

end

/-! Messages. -/

theorem Message.ofLine_injective {a b : List Char × Nat}
    (h : Message.ofLine a = Message.ofLine b) : a = b := by
  obtain ⟨a, m⟩ := a
  obtain ⟨b, n⟩ := b
  simp only [ofLine, Message.mk.injEq, Option.some.injEq, List.cons.injEq, Prod.mk.injEq] at h
  obtain ⟨-, ⟨⟨-, hnumber⟩, -⟩, hline⟩ := h
  cases hnumber
  rw [String.ofList_injective hline]

theorem mem_messagesFrom {m : Message} {ls : List (List Char)} : m ∈ messagesFrom 0 ls ↔
    ∃ i line, ls[i]? = some line ∧ line.all Text.isBlank = false ∧ m = .ofLine (line, i + 1) := by
  simp only [messagesFrom, List.mem_map, List.mem_filter, Prod.exists,
    List.mem_zipIdx_iff_le_and_getElem?_sub]
  constructor
  · rintro ⟨line, n, ⟨⟨hn, hline⟩, hblank⟩, rfl⟩
    obtain ⟨i, rfl⟩ := Nat.exists_eq_add_of_le' hn
    exact ⟨i, line, hline, by simpa using hblank, rfl⟩
  · rintro ⟨i, line, hline, hblank, rfl⟩
    exact ⟨line, i + 1, ⟨⟨by omega, hline⟩, by simpa using hblank⟩, rfl⟩

theorem tells_iff {content : String} {ls : List (List Char)}
    (hlength : ls.length = (lines content).length) :
    Tells (messagesFrom 0 ls) content ↔
      ∀ (i : Nat) first line, ls[i]? = some first → (lines content)[i]? = some line →
        Alike first line := by
  constructor
  · rintro ⟨htold, hwhole⟩ i first line hfirst hline
    cases hblank : first.all Text.isBlank with
    | false =>
        obtain ⟨j, line', hline', heq⟩ :=
          hwhole _ (mem_messagesFrom.mpr ⟨i, first, hfirst, hblank, rfl⟩)
        cases Message.ofLine_injective heq
        exact .inl (Option.some.inj (hline'.symm.trans hline))
    | true =>
        right
        refine ⟨hblank, ?_⟩
        by_contra hnot
        obtain ⟨j, first', hfirst', hblank', heq⟩ :=
          mem_messagesFrom.mp (htold i line hline (Bool.eq_false_iff.mpr hnot))
        cases Message.ofLine_injective heq
        cases hfirst'.symm.trans hfirst
        exact Bool.false_ne_true (hblank'.symm.trans hblank)
  · intro hsame
    constructor
    case told =>
      intro i line hline hblank
      obtain ⟨hi, -⟩ := List.getElem?_eq_some_iff.mp hline
      rw [← hlength] at hi
      have hfirst := List.getElem?_eq_getElem hi
      rcases hsame i _ line hfirst hline with heq | ⟨-, hblank'⟩
      · rw [heq] at hfirst
        exact mem_messagesFrom.mpr ⟨i, line, hfirst, hblank, rfl⟩
      · exact absurd (hblank.symm.trans hblank') Bool.false_ne_true
    case whole =>
      intro m hm
      obtain ⟨i, first, hfirst, hblank, rfl⟩ := mem_messagesFrom.mp hm
      obtain ⟨hi, -⟩ := List.getElem?_eq_some_iff.mp hfirst
      rw [hlength] at hi
      have hline := List.getElem?_eq_getElem hi
      rcases hsame i first _ hfirst hline with heq | ⟨hblank', -⟩
      · exact ⟨i, first, heq ▸ hline, rfl⟩
      · exact absurd (hblank.symm.trans hblank') Bool.false_ne_true

end Inbox

/-! What a monitor of such an inbox does. -/

section
variable {ω : Type} [MonadFiles (StateM ω)] [MonadOutput (StateM ω)] [MonadClock (StateM ω)]
  (path account : String)

theorem world_of_monitor {ctx : AdapterContext} (hinbox : inbox ctx = .ok path)
    (hinterval : 0 < (pollConfig ctx).interval) (w : ω) :
    ((monitor ctx account : StateM ω _).run w).2 =
      Watched.replay (Monitor.Act.perform (fetch path account) emit) w
        (monitorActs path account ctx w) := by
  have hcheck : (pollConfig ctx).check = .ok () := if_neg (Nat.ne_of_gt hinterval)
  have hpath : Watched.Path (Monitor.Act.perform (fetch path account) emit) w
      (monitorActs path account ctx w) _ :=
    Monitor.path_acts (fetch path account) emit (pollConfig ctx) maxPolls (.start 0) w
  rw [monitor, hinbox, hcheck]
  dsimp only
  rw [StateT.run_bind, ← hpath.eq_replay]
  generalize (Monitor.run (pollConfig ctx) (fetch path account) emit maxPolls
    (.start 0) : StateM ω (Monitor.Outcome Nat)).run w = ended
  obtain ⟨outcome, w'⟩ := ended
  cases outcome <;> rfl

/-- What the emitted events of a monitor tell. -/
def emittedMessages (ctx : AdapterContext) (w : ω) : List Inbox.Message :=
  (Monitor.emissions (monitorActs path account ctx w)).map
    fun emission => Inbox.Message.ofEvent emission.1

theorem emittedMessages_eq {ctx : AdapterContext} (w : ω)
    (htaken : ∀ event e, .emitted event (.error e) ∉ monitorActs path account ctx w)
    (hextends : Inbox.Extends "" (readings path account w (monitorActs path account ctx w))) :
    emittedMessages path account ctx w = Inbox.messagesFrom 0 (Inbox.seenAfter []
      (readings path account w (monitorActs path account ctx w))) := by
  have hruns := Monitor.runs_acts (fetch path account) emit (pollConfig ctx) maxPolls (.start 0) w
  have hpath := Monitor.path_acts (fetch path account) emit (pollConfig ctx) maxPolls (.start 0) w
  have hemissions := hruns.delivers.emissions_eq htaken
  have hmessages := @Inbox.messages_seenAfter account "" [] _ _ hextends rfl hruns.follows.1
    (answers_acts path account hpath)
  rw [emittedMessages, monitorActs, hemissions, List.map_map, ← monitorActs, ← hmessages]
  rfl

/-- Wherever an inbox is cut while it grows, there is one event for each line that is not blank when
a poll sees it first, and the event tells what the poll sees of the line. So each line of the last
text is told as a whole, and nothing else is told, if and only if no poll sees a part of a line
before it sees the line; and a poll sees a part only where a text stops in the line. -/
theorem messages_of_growing_inbox {ctx : AdapterContext} (hinbox : inbox ctx = .ok path)
    (hinterval : 0 < (pollConfig ctx).interval) (w : ω)
    (htaken : ∀ event e, .emitted event (.error e) ∉ monitorActs path account ctx w)
    (hextends : Inbox.Extends "" (readings path account w (monitorActs path account ctx w))) :
    let texts := readings path account w (monitorActs path account ctx w)
    let last := Inbox.lastText "" texts
    ((monitor ctx account : StateM ω _).run w).2 =
        Watched.replay (Monitor.Act.perform (fetch path account) emit) w
          (monitorActs path account ctx w) ∧
      (∃ seen : List (List Char), seen.length = (Inbox.lines last).length ∧
        (∀ i line, seen[i]? = some line ↔ Inbox.FirstSeen "" texts i line) ∧
        emittedMessages path account ctx w = Inbox.messagesFrom 0 seen) ∧
      (Inbox.Tells (emittedMessages path account ctx w) last ↔
        ∀ i first line, Inbox.FirstSeen "" texts i first → (Inbox.lines last)[i]? = some line →
          Inbox.Alike first line) ∧
      ∀ i first, Inbox.FirstSeen "" texts i first → (Inbox.lines last)[i]? ≠ some first →
        ∃ text, .ok text ∈ texts ∧ Inbox.StopsIn text i ∧
          (Inbox.lines text)[i]? = some first := by
  intro texts last
  have hmessages : emittedMessages path account ctx w =
      Inbox.messagesFrom 0 (Inbox.seenAfter [] texts) :=
    emittedMessages_eq path account w htaken hextends
  have hlength : (Inbox.seenAfter [] texts).length = (Inbox.lines last).length :=
    Inbox.length_seenAfter hextends rfl
  have hseen (i : Nat) (line : List Char) :
      (Inbox.seenAfter [] texts)[i]? = some line ↔ Inbox.FirstSeen "" texts i line := by
    have hiff := @Inbox.getElem?_seenAfter "" texts i line [] hextends rfl
    simpa using hiff
  refine ⟨world_of_monitor path account hinbox hinterval w,
    ⟨Inbox.seenAfter [] texts, hlength, hseen, hmessages⟩, ?_, ?_⟩
  · rw [hmessages, Inbox.tells_iff hlength]
    simp only [hseen]
  · intro i first hfirst hother
    exact (hfirst.eq_or hextends).resolve_left hother

end

/-- The first poll sees only a part of the second line. -/
def cutBoard : Board :=
  ⟨[some "one\npar", some "one\npartial\n"]⟩

theorem readings_cutBoard : readings "board" "default" cutBoard
    (monitorActs "board" "default" boardContext cutBoard) =
      [.ok "one\npar", .ok "one\npartial\n"] := by
  decide +kernel

theorem extends_cutBoard : Inbox.Extends "" (readings "board" "default" cutBoard
    (monitorActs "board" "default" boardContext cutBoard)) := by
  rw [readings_cutBoard]
  apply Inbox.Extends.read "one\npar" (by decide +kernel)
  apply Inbox.Extends.read "tial\n" (by decide +kernel)
  apply Inbox.Extends.nil

theorem taken_cutBoard : ∀ event e, .emitted event (.error e) ∉
    monitorActs "board" "default" boardContext cutBoard :=
  taken_of_all (by decide +kernel)

theorem contents_cutBoard :
    (emittedMessages "board" "default" boardContext cutBoard).map Inbox.Message.content =
      ["one", "par"] := by
  decide +kernel

theorem messages_of_growing_inbox_cut :
    ((monitor boardContext "default" : StateM Board _).run cutBoard).2 = ⟨[]⟩ ∧
      ∃ text, .ok text ∈ readings "board" "default" cutBoard
          (monitorActs "board" "default" boardContext cutBoard) ∧
        Inbox.StopsIn text 1 ∧ (Inbox.lines text)[1]? = some "par".toList := by
  have hinbox : inbox boardContext = .ok "board" := rfl
  obtain ⟨hworld, -, -, hstops⟩ := messages_of_growing_inbox "board" "default" hinbox (by decide)
    cutBoard taken_cutBoard extends_cutBoard
  refine ⟨hworld.trans (by decide +kernel), hstops 1 "par".toList ?_ ?_⟩
  · rw [readings_cutBoard]
    exact ⟨[], "one\npar", _, rfl, by decide +kernel, by decide +kernel⟩
  · rw [readings_cutBoard]
    decide +kernel

/-- A line is lost if a poll sees a part of it, although every poll reads the inbox, which grows and
is read as a whole. -/
theorem not_forall_lines_told :
    ¬ ∀ w : Board,
      (∀ event e, .emitted event (.error e) ∉ monitorActs "board" "default" boardContext w) →
      (∀ e, .error e ∉ readings "board" "default" w
        (monitorActs "board" "default" boardContext w)) →
      Inbox.Extends "" (readings "board" "default" w
        (monitorActs "board" "default" boardContext w)) →
      Inbox.Whole (Inbox.lastText "" (readings "board" "default" w
        (monitorActs "board" "default" boardContext w))) →
      Inbox.Tells (emittedMessages "board" "default" boardContext w)
        (Inbox.lastText "" (readings "board" "default" w
          (monitorActs "board" "default" boardContext w))) := by
  intro h
  have hread : ∀ e, .error e ∉ readings "board" "default" cutBoard
      (monitorActs "board" "default" boardContext cutBoard) := by
    simp [readings_cutBoard]
  have htells := h cutBoard taken_cutBoard hread extends_cutBoard
  rw [readings_cutBoard] at htells
  have htold := (htells (.inr (by decide +kernel))).told 1 "partial".toList (by decide +kernel)
    (by decide +kernel)
  have hmem := List.mem_map_of_mem (f := Inbox.Message.content) htold
  rw [contents_cutBoard] at hmem
  revert hmem
  decide +kernel

end ChannelAdapter.Loopback
