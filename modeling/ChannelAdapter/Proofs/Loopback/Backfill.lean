import ChannelAdapter.Calendar.Parse
import ChannelAdapter.Loopback
import ChannelAdapter.Proofs.Calendar
import ChannelAdapter.Proofs.Emitter
/-!
The past of the inbox. A monitor and a backfill read the same events; the one goes on after a line,
the other begins at a time, and since lines are stamped in their order, both leave an end of them.
-/

namespace ChannelAdapter.Loopback

namespace Inbox

def lineNumber (e : Event) : Nat :=
  match (e.metadata.getD []).lookup "line" with
  | some (.number (.integer n)) => n.toNat
  | _ => 0

/-- An event comes before another, by its line and, unless it has the last time, by its time. -/
structure Before (a b : Event) : Prop where
  line : lineNumber a < lineNumber b
  le : a.timestamp ≤ b.timestamp
  lt (h : a.timestamp < maxTimestamp) : a.timestamp < b.timestamp

section
variable (account : String) (modified : Int) {cursor n : Nat} {ls : List (List Char)}

theorem lineNumber_event (line : List Char) : lineNumber (event account modified n line) = n := by
  rfl

theorem before_event {k : Nat} (h : n < k) (line later : List Char) :
    Before (event account modified n line) (event account modified k later) := by
  have htime : (event account modified n line).timestamp = min (modified + n) maxTimestamp := rfl
  have hlater : (event account modified k later).timestamp = min (modified + k) maxTimestamp := rfl
  refine ⟨h, ?_, fun hlt => ?_⟩
  · rw [htime, hlater]
    omega
  · rw [htime] at hlt
    rw [htime, hlater]
    omega

theorem exists_of_mem_eventsFrom {e : Event} (h : e ∈ eventsFrom account modified cursor n ls) :
    ∃ k line, n < k ∧ e = event account modified k line := by
  induction ls generalizing n with
  | nil => cases h
  | cons line ls ih =>
      rw [eventsFrom] at h
      split at h
      · obtain ⟨k, later, hk, he⟩ := ih h
        exact ⟨k, later, by omega, he⟩
      · rcases List.mem_cons.mp h with rfl | hmem
        · exact ⟨n + 1, line, Nat.lt_succ_self n, rfl⟩
        · obtain ⟨k, later, hk, he⟩ := ih hmem
          exact ⟨k, later, by omega, he⟩

theorem pairwise_eventsFrom : (eventsFrom account modified cursor n ls).Pairwise Before := by
  induction ls generalizing n with
  | nil => exact .nil
  | cons line ls ih =>
      rw [eventsFrom]
      split
      · exact ih
      · refine .cons (fun e he => ?_) ih
        obtain ⟨k, later, hk, rfl⟩ := exists_of_mem_eventsFrom account modified he
        exact before_event account modified hk line later

theorem eventsFrom_eq_filter :
    eventsFrom account modified cursor n ls =
      (eventsFrom account modified 0 n ls).filter (cursor < lineNumber ·) := by
  induction ls generalizing n with
  | nil => rfl
  | cons line ls ih =>
      have hstart : ¬n + 1 ≤ 0 := Nat.not_succ_le_zero n
      rw [eventsFrom, eventsFrom, ih]
      cases line.all Text.isBlank with
      | true =>
          -- a blank line is counted, but it is in neither list
          simp only [Bool.or_true, if_true]
      | false =>
          simp only [Bool.or_false, decide_eq_true_eq, if_neg hstart, List.filter_cons,
            lineNumber_event]
          by_cases hread : n + 1 ≤ cursor
          · rw [if_pos hread, if_neg (Nat.not_lt.mpr hread)]
          · rw [if_neg hread, if_pos (Nat.lt_of_not_le hread)]

end

/-- The events that a backfill takes, which are those since a time. -/
def since (t : Calendar.Instant) (es : List Event) : List Event :=
  es.filter (t.milliseconds ≤ ·.timestamp)

theorem filter_suffix {α : Type} {p : α → Bool} {l : List α}
    (h : l.Pairwise fun a b => p a = true → p b = true) : l.filter p <:+ l := by
  induction h with
  | nil => exact List.suffix_refl []
  | @cons a l ha _ ih =>
      by_cases hp : p a = true
      · have hall : ∀ b ∈ a :: l, p b = true := by
          intro b hb
          rcases List.mem_cons.mp hb with rfl | hmem
          · exact hp
          · exact ha b hmem hp
        exact ⟨[], List.filter_eq_self.mpr hall⟩
      · rw [List.filter_cons_of_neg hp]
        exact ih.trans (List.suffix_cons a l)

section
variable {es : List Event} (hes : es.Pairwise Before)
include hes

theorem since_suffix (t : Calendar.Instant) : since t es <:+ es := by
  refine filter_suffix (hes.imp fun hbefore h => ?_)
  have hle := hbefore.le
  rw [decide_eq_true_eq] at h ⊢
  omega

theorem since_suffix_since {t later : Calendar.Instant}
    (h : t.milliseconds ≤ later.milliseconds) : since later es <:+ since t es := by
  -- what is taken from the later time on is also taken from the earlier one on
  have hboth : since later es = since later (since t es) := by
    rw [since, since, since, List.filter_filter]
    refine List.filter_congr fun e _ => ?_
    rw [Bool.eq_iff_iff, Bool.and_eq_true, decide_eq_true_eq, decide_eq_true_eq]
    omega
  rw [hboth]
  exact since_suffix (hes.sublist (since_suffix hes t).sublist) later

end

end Inbox

/-! What is written. -/

section
variable {ω : Type} [MonadFiles (StateM ω)]

/-- A file can be read: it has this content, and this is when it was changed last. -/
structure Inbox.Holds (path content : String) (modified : Int) (w : ω) : Prop where
  content : ((readText path : StateM ω _).run w).1 = .ok content
  modified : ((MonadFiles.modified path : StateM ω _).run
    ((readText path : StateM ω _).run w).2).1 = modified

def Inbox.afterRead (path : String) (w : ω) : ω :=
  ((MonadFiles.modified path : StateM ω _).run ((readText path : StateM ω _).run w).2).2

variable {path content : String} {modified : Int}

theorem run_read (account : String) (cursor : Nat) {w : ω}
    (hholds : Inbox.Holds path content modified w) :
    (Inbox.read path account cursor : StateM ω _).run w =
      (.ok (Inbox.events account modified cursor content, (Inbox.lines content).length),
        Inbox.afterRead path w) := by
  obtain ⟨hcontent, hmodified⟩ := hholds
  cases hread : (readText path : StateM ω _).run w with
  | mk reading w' =>
      rw [hread] at hcontent hmodified
      dsimp only at hcontent
      subst hcontent
      rw [Inbox.read, run_bind_of_run hread, Inbox.afterRead, hread, ← hmodified]
      rfl

variable [MonadOutput (StateM ω)] [MonadClock (StateM ω)]

/-- All records are taken, and none is written but by the program. -/
structure Recorded (written : ω → List String) (path : String) : Prop where
  sink : Stream.Sink written true
  read (w : ω) : written ((readText path : StateM ω _).run w).2 = written w
  modified (w : ω) : written ((MonadFiles.modified path : StateM ω _).run w).2 = written w
  sleep (ms : Nat) (w : ω) : written ((MonadClock.sleep ms : StateM ω _).run w).2 = written w

def record (e : Event) : String :=
  Output.line (Event.record.codec.encode e)

variable {written : ω → List String}

omit [MonadFiles (StateM ω)] [MonadClock (StateM ω)] in
theorem run_emitAll (hsink : Stream.Sink written true) (count : Nat) (es : List Event) (w : ω) :
    ∃ w', (Monitor.emitAll emit count es : StateM ω _).run w = (.ok (count + es.length), w') ∧
      written w' = written w ++ es.map record := by
  induction es generalizing count w with
  | nil => exact ⟨w, rfl, (List.append_nil _).symm⟩
  | cons e es ih =>
      cases hrun : (emit e : StateM ω _).run w with
      | mk result w₁ =>
          obtain ⟨hok, hwritten⟩ := Emitter.written_ok hsink (Event.record.codec.encode e) w hrun
          cases result with
          | error e => cases hok
          | ok done =>
              obtain ⟨w', hrest, hmore⟩ := ih (count + 1) w₁
              refine ⟨w', ?_, ?_⟩
              · rw [Monitor.emitAll, run_bind_of_run hrun, hrest, List.length_cons,
                  Nat.add_right_comm, Nat.add_assoc]
              · rw [hmore, hwritten, List.append_assoc]
                rfl

variable (hrecorded : Recorded written path) (account : String) {w : ω}
  (hholds : Inbox.Holds path content modified w)
include hrecorded

theorem Recorded.written_afterRead (w : ω) :
    written (Inbox.afterRead path w) = written w := by
  rw [Inbox.afterRead, hrecorded.modified, hrecorded.read]

include hholds

theorem run_firstPoll (c : Monitor.Config) :
    ∃ p w', (Monitor.poll c (fetch path account) emit (.start 0) : StateM ω _).run w =
        (.running p, w') ∧
      written w' = written w ++ (Inbox.events account modified 0 content).map record := by
  have hread := run_read account 0 hholds
  obtain ⟨w', hemit, hwritten⟩ := run_emitAll hrecorded.sink 0
    (Inbox.events account modified 0 content) (Inbox.afterRead path w)
  have hfetch : (fetch path account 0 : StateM ω _).run w =
      (.ok ⟨Inbox.events account modified 0 content, some (Inbox.lines content).length⟩,
        Inbox.afterRead path w) := by
    rw [fetch, run_bind_of_run hread]
    rfl
  refine ⟨⟨Cursor.next 0 (some (Inbox.lines content).length), 1,
      0 + (Inbox.events account modified 0 content).length, 0⟩,
    ((MonadClock.sleep c.interval : StateM ω _).run w').2, ?_,
    by rw [hrecorded.sleep, hwritten, hrecorded.written_afterRead]⟩
  rw [Monitor.poll, Monitor.Progress.start, run_bind_of_run hfetch]
  dsimp only
  rw [run_bind_of_run hemit]
  rfl

theorem run_backfill {ctx : AdapterContext} (hinbox : inbox ctx = .ok path)
    (t : Calendar.Instant) :
    ∃ w', (backfill ctx account t : StateM ω _).run w = (.ok (), w') ∧
      written w' = written w ++
        (Inbox.since t (Inbox.events account modified 0 content)).map record := by
  have hread := run_read account 0 hholds
  obtain ⟨w', hemit, hwritten⟩ := run_emitAll hrecorded.sink 0
    (Inbox.since t (Inbox.events account modified 0 content)) (Inbox.afterRead path w)
  refine ⟨w', ?_, by rw [hwritten, hrecorded.written_afterRead]⟩
  rw [backfill, hinbox]
  dsimp only
  rw [run_bind_of_run hread]
  dsimp only
  rw [Inbox.since] at hemit
  rw [run_bind_of_run hemit]
  rfl

end

/-- While the inbox stays as it is, a read from any line on gives what a read from the start gives
beyond that line; a first poll emits it all, and a backfill an end of it, which gets no longer as
the time gets later. A leap second is an exception, as it reaches into the second after it. -/
theorem backfill_agrees {ω : Type} [MonadFiles (StateM ω)] [MonadOutput (StateM ω)]
    [MonadClock (StateM ω)] {ctx : AdapterContext} {path : String}
    (hinbox : inbox ctx = .ok path) (account content : String) (modified : Int) :
    (∀ cursor (w : ω), Inbox.Holds path content modified w →
      ∃ w', (Inbox.read path account cursor : StateM ω _).run w =
        (.ok ((Inbox.events account modified 0 content).filter (cursor < Inbox.lineNumber ·),
          (Inbox.lines content).length), w')) ∧
    (Inbox.events account modified 0 content).Pairwise Inbox.Before ∧
    (∀ written (w : ω), Recorded written path → Inbox.Holds path content modified w →
      ∃ p w', (Monitor.poll (pollConfig ctx) (fetch path account) emit (.start 0) :
          StateM ω _).run w = (.running p, w') ∧
        written w' = written w ++ (Inbox.events account modified 0 content).map record) ∧
    (∀ t written (w : ω), Recorded written path → Inbox.Holds path content modified w →
      ∃ w', (backfill ctx account t : StateM ω _).run w = (.ok (), w') ∧
        written w' = written w ++
          (Inbox.since t (Inbox.events account modified 0 content)).map record) ∧
    (∀ t, Inbox.since t (Inbox.events account modified 0 content) <:+
      Inbox.events account modified 0 content) ∧
    ∀ t later : Calendar.Instant,
      t.milliseconds ≤ later.milliseconds ∨ t < later ∧ t.nanoseconds < 1000000000 →
      Inbox.since later (Inbox.events account modified 0 content) <:+
        Inbox.since t (Inbox.events account modified 0 content) := by
  have hpairwise : (Inbox.events account modified 0 content).Pairwise Inbox.Before :=
    Inbox.pairwise_eventsFrom account modified
  refine ⟨fun cursor w hholds => ?_, hpairwise,
    fun _ w hrecorded hholds => run_firstPoll hrecorded account hholds _,
    fun t _ w hrecorded hholds => run_backfill hrecorded account hholds hinbox t,
    Inbox.since_suffix hpairwise, fun t later h => ?_⟩
  · have hread := run_read account cursor hholds
    rw [Inbox.events, Inbox.eventsFrom_eq_filter] at hread
    exact ⟨_, hread⟩
  · rcases h with hle | ⟨hlt, hleap⟩
    · exact Inbox.since_suffix_since hpairwise hle
    · exact Inbox.since_suffix_since hpairwise (Calendar.Instant.milliseconds_le hlt hleap)

/-- A world with one file, and the records that have been written. -/
structure Desk where
  content : String
  modified : Int
  records : List String

instance : MonadFiles (StateM Desk) where
  read _ := return .ok (← get).content.toUTF8
  modified _ := return (← get).modified
  pathExists _ := return true
  append _ _ := return .error .notFound

instance : MonadOutput (StateM Desk) where
  put record := modifyGet fun w => (.ok (), { w with records := w.records ++ [record] })

instance : MonadClock (StateM Desk) where
  isCancelled := return false
  sleep _ := return ()

theorem recorded_desk : Recorded Desk.records "desk" where
  sink := ⟨fun _ _ => rfl, fun _ _ => rfl⟩
  read w := by
    have hread : (MonadFiles.read "desk" : StateM Desk _).run w = (.ok w.content.toUTF8, w) := rfl
    rw [readText, run_bind_of_run hread]
    dsimp only
    split <;> rfl
  modified _ := rfl
  sleep _ _ := rfl

def deskContext : AdapterContext :=
  ⟨some ⟨none, "loopback", "default", [("inbox", .string "desk")], none⟩⟩

def fullDesk : Desk :=
  ⟨"one\n\nthree\n", 41, []⟩

theorem backfill_agrees_desk :
    ((backfill deskContext "me" ⟨0, 44000000⟩ : StateM Desk _).run fullDesk).2.records =
      [record (Inbox.event "me" 41 3 "three".toList)] := by
  have hholds : Inbox.Holds "desk" "one\n\nthree\n" 41 fullDesk :=
    ⟨by decide +kernel, by decide +kernel⟩
  have hinbox : inbox deskContext = .ok "desk" := rfl
  obtain ⟨-, -, -, hbackfill, -⟩ :=
    @backfill_agrees Desk _ _ _ _ _ hinbox "me" "one\n\nthree\n" 41
  obtain ⟨w', hrun, hwritten⟩ := hbackfill ⟨0, 44000000⟩ _ fullDesk recorded_desk hholds
  rw [hrun]
  exact hwritten

/-- Half a second after the beginning of a leap second. -/
def leapHalf : Calendar.Instant :=
  ⟨1483228799, 1500000000⟩

def leapOver : Calendar.Instant :=
  ⟨1483228800, 100000000⟩

/-- The line is stamped between them, by their milliseconds. -/
def leapDesk : Desk :=
  ⟨"one\n", 1483228800199, []⟩

/-- From a time within a leap second nothing is emitted, but from a later one an event is. -/
theorem later_since_emits_more :
    (Calendar.parse "2016-12-31T23:59:60.5Z").toOption = some leapHalf ∧
    (Calendar.parse "2017-01-01T00:00:00.1Z").toOption = some leapOver ∧ leapHalf < leapOver ∧
    ¬((backfill deskContext "me" leapOver : StateM Desk _).run leapDesk).2.records <:+
      ((backfill deskContext "me" leapHalf : StateM Desk _).run leapDesk).2.records := by
  have hnone : ((backfill deskContext "me" leapHalf : StateM Desk _).run leapDesk).2.records =
      [] := by
    decide +kernel
  have hsome : ((backfill deskContext "me" leapOver : StateM Desk _).run leapDesk).2.records ≠
      [] := by
    decide +kernel
  refine ⟨by decide +kernel, by decide +kernel, .inl (by decide), ?_⟩
  rw [hnone, List.suffix_nil]
  exact hsome

end ChannelAdapter.Loopback
