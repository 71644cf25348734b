import ChannelAdapter.Proofs.Monitor.Schedule
/-!
Stopping a monitor and going on later. If what a fetch brings depends on the cursor and on how many
fetches there have been, then a monitor that begins at the reported cursor does what the stopped one
would have done. So the cursor is all that has to be kept.
-/

namespace ChannelAdapter.Monitor

variable {κ ε ω : Type}

/-- A source that answers by the number of the fetch and the cursor, and a sink that never fails. -/
structure Numbered [MonadClock (StateM ω)] (answer : Nat → κ → Except ErrorChain (Batch κ ε))
    (polls : ω → Nat) (fetch : κ → StateM ω (Except ErrorChain (Batch κ ε)))
    (emit : ε → StateM ω (Except Error Unit)) : Prop where
  answer_fetch (cursor : κ) (w : ω) : ((fetch cursor).run w).1 = answer (polls w) cursor
  answer_emit (event : ε) (w : ω) : ((emit event).run w).1 = .ok ()
  polls_fetch (cursor : κ) (w : ω) : polls ((fetch cursor).run w).2 = polls w + 1
  polls_emit (event : ε) (w : ω) : polls ((emit event).run w).2 = polls w
  polls_check (w : ω) : polls ((MonadClock.isCancelled : StateM ω Bool).run w).2 = polls w
  polls_sleep (ms : Nat) (w : ω) :
    polls ((MonadClock.sleep ms : StateM ω Unit).run w).2 = polls w

/-- The checks find the run cancelled when there have been so many fetches, and not before. -/
def CancelledAfter : Nat → List (Act κ ε) → Prop
  | _, [] => True
  | k, .checked cancelled :: acts => (cancelled = true ↔ k = 0) ∧ CancelledAfter k acts
  | k, .fetched _ _ :: acts => CancelledAfter (k - 1) acts
  | k, .emitted _ _ :: acts => CancelledAfter k acts
  | k, .slept _ :: acts => CancelledAfter k acts

instance decidableCancelledAfter : (k : Nat) → (acts : List (Act κ ε)) →
    Decidable (CancelledAfter k acts)
  | _, [] => .isTrue trivial
  | k, .checked _ :: acts =>
      have := decidableCancelledAfter k acts
      inferInstanceAs (Decidable (_ ∧ _))
  | k, .fetched _ _ :: acts => decidableCancelledAfter (k - 1) acts
  | k, .emitted _ _ :: acts => decidableCancelledAfter k acts
  | k, .slept _ :: acts => decidableCancelledAfter k acts

theorem cancelledAfter_append (k : Nat) (acts more : List (Act κ ε)) :
    CancelledAfter k (acts ++ more) ↔
      CancelledAfter k acts ∧ CancelledAfter (k - (fetches acts).length) more := by
  induction acts generalizing k with
  | nil => exact (and_iff_right trivial).symm
  | cons act acts ih =>
      cases act with
      | checked =>
          rw [List.cons_append, CancelledAfter, CancelledAfter, ih, and_assoc, fetches_checked]
      | fetched =>
          rw [List.cons_append, CancelledAfter, CancelledAfter, ih, fetches_fetched,
            List.length_cons, Nat.sub_sub, Nat.add_comm]
      | emitted => exact ih k
      | slept => exact ih k

section
variable [MonadClock (StateM ω)] {answer : Nat → κ → Except ErrorChain (Batch κ ε)}
  {polls : ω → Nat} {fetch : κ → StateM ω (Except ErrorChain (Batch κ ε))}
  {emit : ε → StateM ω (Except Error Unit)} {w w' : ω} {acts : List (Act κ ε)}
  (h : Numbered answer polls fetch emit)
include h

theorem Numbered.of_perform {act : Act κ ε} (hact : (act.perform fetch emit).run w = (act, w')) :
    polls w' = polls w + (fetches [act]).length ∧
      (∀ cursor first, act = .fetched cursor first → first = answer (polls w) cursor) ∧
      ∀ event e, act ≠ .emitted event (.error e) := by
  have hpolls : polls w' = polls ((act.perform fetch emit).run w).2 :=
    congrArg (fun r => polls r.2) hact.symm
  cases act with
  | checked =>
      exact ⟨hpolls.trans (h.polls_check w), nofun, nofun⟩
  | fetched cursor first =>
      refine ⟨hpolls.trans (h.polls_fetch cursor w), ?_, nofun⟩
      intro _ _ heq
      cases heq
      have hfirst := congrArg Prod.fst hact
      injection hfirst with _ hfirst
      exact hfirst.symm.trans (h.answer_fetch cursor w)
  | emitted event answer =>
      refine ⟨hpolls.trans (h.polls_emit event w), nofun, ?_⟩
      intro _ e heq
      cases heq
      have hanswer := congrArg Prod.fst hact
      injection hanswer with _ hanswer
      cases (h.answer_emit event w).symm.trans hanswer
  | slept ms =>
      exact ⟨hpolls.trans (h.polls_sleep ms w), nofun, nofun⟩

theorem Numbered.polls_path (hpath : Watched.Path (Act.perform fetch emit) w acts w') :
    polls w' = polls w + (fetches acts).length := by
  induction hpath with
  | nil => rfl
  | @cons w v w' act acts hact _ ih =>
      rw [ih, (h.of_perform hact).1, Nat.add_assoc, ← List.length_append, ← fetches_append,
        List.singleton_append]

theorem Numbered.answer_path {cursor : κ} {first : Except ErrorChain (Batch κ ε)}
    {back : List (κ × Except ErrorChain (Batch κ ε))}
    (hpath : Watched.Path (Act.perform fetch emit) w acts w')
    (hfetches : fetches acts = (cursor, first) :: back) : first = answer (polls w) cursor := by
  induction hpath with
  | nil => cases hfetches
  | @cons w v w' act acts hact _ ih =>
      obtain ⟨hpolls, hanswer, -⟩ := h.of_perform hact
      cases act with
      | fetched =>
          cases hfetches
          exact hanswer _ _ rfl
      | checked | emitted | slept =>
          rw [ih hfetches, hpolls]
          rfl

theorem Numbered.not_mem_path (hpath : Watched.Path (Act.perform fetch emit) w acts w') (event : ε)
    (e : Error) : .emitted event (.error e) ∉ acts := by
  intro hmem
  obtain ⟨front, back, rfl⟩ := List.append_of_mem hmem
  cases hpath.split.2 with
  | cons hact => exact (h.of_perform hact).2.2 event e rfl

theorem Numbered.not_failed {c : Config} {outcome : Outcome κ} {e : Error}
    (hretry : c.retry = .unbounded) (hpath : Watched.Path (Act.perform fetch emit) w acts w')
    (hends : Ends c acts outcome) : outcome ≠ .failed e := by
  intro houtcome
  cases hends with
  | stopped => cases houtcome
  | spent => cases houtcome
  | @refused front event e =>
      exact h.not_mem_path hpath event e (List.mem_append_right _ (List.mem_singleton_self _))
  | exhausted front hexhausted =>
      rw [hretry] at hexhausted
      cases hexhausted

end

variable [Cursor κ]

section
variable (answer : Nat → κ → Except ErrorChain (Batch κ ε))

/-- The calls of so many fetches, from the one with the number `n` on. -/
def calls (n : Nat) (cursor : κ) : Nat → List (κ × Except ErrorChain (Batch κ ε))
  | 0 => []
  | count + 1 =>
      (cursor, answer n cursor) :: calls (n + 1) (cursorAfter cursor [answer n cursor]) count

theorem calls_add (n : Nat) (cursor : κ) (k m : Nat) :
    calls answer n cursor (k + m) = calls answer n cursor k ++
      calls answer (n + k) (cursorAfter cursor ((calls answer n cursor k).map Prod.snd)) m := by
  induction k generalizing n cursor with
  | zero =>
      rw [Nat.zero_add]
      rfl
  | succ k ih =>
      have hcursor := cursorAfter_cons cursor (answer n cursor)
        ((calls answer (n + 1) (cursorAfter cursor [answer n cursor]) k).map Prod.snd)
      have hnumber : n + (k + 1) = n + 1 + k := by omega
      rw [Nat.succ_add, calls, ih, calls, List.map_cons, hcursor, hnumber, List.cons_append]

end

section
variable [MonadClock (StateM ω)] {answer : Nat → κ → Except ErrorChain (Batch κ ε)}
  {polls : ω → Nat} {fetch : κ → StateM ω (Except ErrorChain (Batch κ ε))}
  {emit : ε → StateM ω (Except Error Unit)} {w w' : ω} {acts : List (Act κ ε)}
  {c : Config} {budget : Nat} {p : Progress κ} {outcome : Outcome κ}
  (h : Numbered answer polls fetch emit)
include h

theorem Runs.fetches_eq_calls (hruns : Runs c budget p acts outcome)
    (hpath : Watched.Path (Act.perform fetch emit) w acts w') :
    fetches acts = calls answer (polls w) p.cursor (fetches acts).length := by
  induction hruns generalizing w with
  | stopped => rfl
  | spent => rfl
  | @ended budget p acts e hpoll =>
      obtain ⟨first, hfetches, -⟩ := hpoll.fetches_eq
      rw [← fetches_checked acts false] at hfetches
      rw [hfetches, h.answer_path hpath hfetches]
      rfl
  | @polled budget p q acts more outcome hpoll _ ih =>
      obtain ⟨first, hfetches, hcursor⟩ := hpoll.fetches_eq
      rw [← fetches_checked acts false] at hfetches
      rw [← List.cons_append] at hpath ⊢
      obtain ⟨hfront, hmore⟩ := hpath.split
      have hpolls := h.polls_path hfront
      have hfirst := h.answer_path hfront hfetches
      -- the rest is a run that begins one fetch later, at the cursor that this poll has left
      have hrest := ih hmore
      rw [hpolls, hcursor q rfl, hfetches, List.length_singleton, hfirst] at hrest
      rw [fetches_append, hfetches, hfirst, List.singleton_append, List.length_cons, calls, ← hrest]

theorem Runs.stopped_of_cancelledAfter {k : Nat} (hretry : c.retry = .unbounded)
    (hruns : Runs c budget p acts outcome)
    (hpath : Watched.Path (Act.perform fetch emit) w acts w') (hbudget : k ≤ budget)
    (hcancelled : CancelledAfter k acts) :
    (fetches acts).length = k ∧ ∃ q, outcome = .stopped q := by
  induction hruns generalizing w k with
  | @stopped budget p => exact ⟨(hcancelled.1.mp rfl).symm, p, rfl⟩
  | spent =>
      have hzero := hcancelled.1.mpr (Nat.le_zero.mp hbudget)
      cases hzero
  | ended hpoll => exact absurd rfl (h.not_failed hretry hpath (hpoll.ends.append [.checked false]))
  | @polled budget p q acts more outcome hpoll _ ih =>
      obtain ⟨first, hfetches, -⟩ := hpoll.fetches_eq
      rw [← fetches_checked acts false] at hfetches
      have hpos : k ≠ 0 := fun hzero => Bool.false_ne_true (hcancelled.1.mpr hzero)
      rw [← List.cons_append] at hpath hcancelled ⊢
      rw [cancelledAfter_append, hfetches, List.length_singleton] at hcancelled
      obtain ⟨hlength, hstopped⟩ := ih hpath.split.2 (by omega) hcancelled.2
      rw [fetches_append, List.length_append, hfetches, List.length_singleton, hlength]
      exact ⟨by omega, hstopped⟩

theorem Runs.of_cancelledAfter {k : Nat} {initial : κ} (hretry : c.retry = .unbounded)
    (hruns : Runs c budget (.start initial) acts outcome)
    (hpath : Watched.Path (Act.perform fetch emit) w acts w') (hbudget : k ≤ budget)
    (hcancelled : CancelledAfter k acts) :
    ∃ report, outcome.report? = some report ∧ report.polls = k ∧
      report.emitted = (emissions acts).length ∧
      report.cursor = cursorAfter initial ((fetches acts).map Prod.snd) ∧
      fetches acts = calls answer (polls w) initial k ∧
      emissions acts = (arrivals acts).map (·, .ok ()) := by
  obtain ⟨hlength, q, rfl⟩ := hruns.stopped_of_cancelledAfter h hretry hpath hbudget hcancelled
  obtain ⟨hpolls, hemitted⟩ := hruns.counts
  have hcalls := hruns.fetches_eq_calls h hpath
  rw [hlength] at hcalls hpolls
  exact ⟨_, rfl, hpolls.trans (Nat.zero_add k), hemitted.trans (Nat.zero_add _),
    hruns.follows.2 q rfl, hcalls, hruns.delivers.emissions_eq (h.not_mem_path hpath)⟩

end

/-- A run that is cancelled while it polls for the `k`th time, wherever in it, and a run of `m`
polls more from the cursor that the first one reports fetch and emit together what one run of
`k + m` polls does, and end with its cursor. -/
theorem stop_and_resume [MonadClock (StateM ω)] (c : Config)
    (answer : Nat → κ → Except ErrorChain (Batch κ ε)) (polls : ω → Nat)
    (fetch : κ → StateM ω (Except ErrorChain (Batch κ ε))) (emit : ε → StateM ω (Except Error Unit))
    (budget k m : Nat) (initial : κ) (w v : ω) (h : Numbered answer polls fetch emit)
    (hretry : c.retry = .unbounded) (hbudget : k + m ≤ budget) (hw : polls w = 0)
    (hv : polls v = 0) (hstop : CancelledAfter k (acts fetch emit c budget (.start initial) w))
    (hwhole : CancelledAfter (k + m) (acts fetch emit c budget (.start initial) v)) :
    ∃ stopped whole,
      ((run c fetch emit budget (.start initial)).run w).1.report? = some stopped ∧
      ((run c fetch emit budget (.start initial)).run v).1.report? = some whole ∧
      stopped.polls = k ∧ whole.polls = k + m ∧
      ∀ u, polls u = k →
        CancelledAfter m (acts fetch emit c budget (.start stopped.cursor) u) →
        ∃ resumed,
          ((run c fetch emit budget (.start stopped.cursor)).run u).1.report? = some resumed ∧
          resumed.polls = m ∧
          fetches (acts fetch emit c budget (.start initial) v) =
            fetches (acts fetch emit c budget (.start initial) w) ++
              fetches (acts fetch emit c budget (.start stopped.cursor) u) ∧
          emissions (acts fetch emit c budget (.start initial) v) =
            emissions (acts fetch emit c budget (.start initial) w) ++
              emissions (acts fetch emit c budget (.start stopped.cursor) u) ∧
          whole.cursor = resumed.cursor ∧
          whole.emitted = stopped.emitted + resumed.emitted := by
  obtain ⟨stopped, hstopped, hpolls, hemitted, hcursor, hcalls, hemissions⟩ :=
    (runs_acts fetch emit c budget (.start initial) w).of_cancelledAfter h hretry
      (path_acts fetch emit c budget (.start initial) w) (by omega) hstop
  obtain ⟨whole, hwhole, hpolls', hemitted', hcursor', hcalls', hemissions'⟩ :=
    (runs_acts fetch emit c budget (.start initial) v).of_cancelledAfter h hretry
      (path_acts fetch emit c budget (.start initial) v) hbudget hwhole
  refine ⟨stopped, whole, hstopped, hwhole, hpolls, hpolls', ?_⟩
  intro u hu hresume
  obtain ⟨resumed, hresumed, hpolls'', hemitted'', hcursor'', hcalls'', hemissions''⟩ :=
    (runs_acts fetch emit c budget (.start stopped.cursor) u).of_cancelledAfter h hretry
      (path_acts fetch emit c budget (.start stopped.cursor) u) (by omega) hresume
  have hfetches : fetches (acts fetch emit c budget (.start initial) v) =
      fetches (acts fetch emit c budget (.start initial) w) ++
        fetches (acts fetch emit c budget (.start stopped.cursor) u) := by
    rw [hw] at hcalls
    rw [hcalls', hcalls'', hv, hu, calls_add, hcursor, hcalls, Nat.zero_add]
  have harrivals : arrivals (acts fetch emit c budget (.start initial) v) =
      arrivals (acts fetch emit c budget (.start initial) w) ++
        arrivals (acts fetch emit c budget (.start stopped.cursor) u) := by
    rw [arrivals, hfetches, List.flatMap_append]
    rfl
  have hemits : emissions (acts fetch emit c budget (.start initial) v) =
      emissions (acts fetch emit c budget (.start initial) w) ++
        emissions (acts fetch emit c budget (.start stopped.cursor) u) := by
    rw [hemissions', harrivals, List.map_append, ← hemissions, ← hemissions'']
  refine ⟨resumed, hresumed, hpolls'', hfetches, hemits, ?_, ?_⟩
  · rw [hcursor', hfetches, List.map_append, cursorAfter_append, ← hcursor, hcursor'']
  · rw [hemitted', hemits, List.length_append, hemitted, hemitted'']

def batches (n cursor : Nat) : Except ErrorChain (Batch Nat String) :=
  match n with
  | 0 => .ok ⟨["a"], some 7⟩
  | 1 => .error (.ofText "down")
  | 2 => .ok ⟨["b", "c"], none⟩
  | _ => .ok ⟨["d"], some (cursor + 1)⟩

def counting (cursor : Nat) : World.Sim (Except ErrorChain (Batch Nat String)) := do
  let w ← get
  set { w with ids := ⟨w.ids.last + 1⟩ }
  return batches w.ids.last cursor

theorem numbered_counting : Numbered batches (·.ids.last) counting keep where
  answer_fetch _ _ := rfl
  answer_emit _ _ := rfl
  polls_fetch _ _ := rfl
  polls_emit event w := congrArg Loopback.Ids.last (w.ids_write event)
  polls_check _ := rfl
  polls_sleep _ _ := rfl

/-- The first run is cancelled between the two events of its third batch. -/
theorem stop_and_resume_counting :
    ∃ first rest whole, acts counting keep ⟨1000, none, .unbounded⟩ 9 (.start 0)
        { World.start ⟨[]⟩ none with script := [(2, .cancel)] } = first ∧
      acts counting keep ⟨1000, none, .unbounded⟩ 9 (.start 7)
        { World.start ⟨[]⟩ (some 1500) with ids := ⟨3⟩ } = rest ∧
      acts counting keep ⟨1000, none, .unbounded⟩ 9 (.start 0) (World.start ⟨[]⟩ (some 4500)) =
        whole ∧
      (fetches first).map Prod.fst = [0, 7, 7] ∧ fetches whole = fetches first ++ fetches rest ∧
      emissions whole = emissions first ++ emissions rest := by
  obtain ⟨stopped, whole, hstopped, -, -, -, hresume⟩ := stop_and_resume ⟨1000, none, .unbounded⟩
    batches (·.ids.last) counting keep 9 3 2 0
    { World.start ⟨[]⟩ none with script := [(2, .cancel)] } (World.start ⟨[]⟩ (some 4500))
    numbered_counting rfl (by decide) rfl rfl (by decide) (by decide)
  cases hstopped
  obtain ⟨resumed, -, -, hfetches, hemissions, -⟩ :=
    hresume { World.start ⟨[]⟩ (some 1500) with ids := ⟨3⟩ } rfl (by decide)
  exact ⟨_, _, _, rfl, rfl, rfl, rfl, hfetches, hemissions⟩

end ChannelAdapter.Monitor
