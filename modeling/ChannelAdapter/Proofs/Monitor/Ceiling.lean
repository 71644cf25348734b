import Mathlib.Algebra.Group.Nat.Defs
import ChannelAdapter.Proofs.Monitor.Emission
/-!
When a monitor gives up. It does so at the last of so many failures in a row as it is to put up
with; a fetch that succeeds in between lets it begin to count anew.
-/

namespace ChannelAdapter.Monitor

variable {κ ε ω : Type}

/-! Failures in a row. -/

/-- So many answers in a row are failures. -/
def FailsInARow (n : Nat) (answers : List (Except ErrorChain (Batch κ ε))) : Prop :=
  ∃ chains : List ErrorChain, chains.length = n ∧ chains.map .error <:+: answers

section
variable {n : Nat} {batch : Batch κ ε} {answers front : List (Except ErrorChain (Batch κ ε))}
  {chains before : List ErrorChain}

theorem FailsInARow.le_length (h : FailsInARow n answers) : n ≤ answers.length := by
  obtain ⟨chains, rfl, hinfix⟩ := h
  simpa using hinfix.length_le

theorem not_failsInARow (before : List ErrorChain) (hbefore : before.length < n) :
    ¬ FailsInARow n (before.map .error : List (Except ErrorChain (Batch κ ε))) := by
  intro hfails
  have hle := hfails.le_length
  rw [List.length_map] at hle
  omega

theorem eq_nil_of_prefix_ok (h : chains.map .error <+: .ok batch :: answers) : chains = [] := by
  cases chains with
  | nil => rfl
  | cons chain chains =>
      rw [List.map_cons, List.cons_prefix_cons] at h
      cases h.1

theorem failsInARow_append_ok (hbefore : before.length < n) :
    FailsInARow n (before.map .error ++ .ok batch :: answers) ↔ FailsInARow n answers := by
  refine ⟨?_, ?_⟩
  · rintro ⟨chains, rfl, hinfix⟩
    refine ⟨chains, rfl, ?_⟩
    rcases List.infix_append_iff.mp hinfix with hfront | hback | ⟨l, r, heq, hl, hr⟩
    · have hle := hfront.length_le
      simp only [List.length_map] at hle
      omega
    · rcases List.infix_cons_iff.mp hback with hprefix | hinfix
      · rw [eq_nil_of_prefix_ok hprefix]
        exact List.nil_infix
      · exact hinfix
    · obtain ⟨left, right, rfl, rfl, rfl⟩ := List.map_eq_append_iff.mp heq
      have hle := hl.length_le
      rw [eq_nil_of_prefix_ok hr, List.append_nil] at hbefore
      simp only [List.length_map] at hle
      omega
  · rintro ⟨chains, hlength, hinfix⟩
    exact ⟨chains, hlength, (List.infix_cons hinfix).trans (List.suffix_append _ _).isInfix⟩

end

/-! What comes of them. -/

/-- A run that has not failed so often in a row, or has just done so and is over. -/
inductive Capped (n : Nat) :
    List (Except ErrorChain (Batch κ ε)) → List (Act κ ε) → Outcome κ → Prop
  | below {answers : List (Except ErrorChain (Batch κ ε))} {acts : List (Act κ ε)}
      {outcome : Outcome κ} (hfew : ¬ FailsInARow n answers)
      (hsink : ∀ e, outcome = .failed e → ∃ event, .emitted event (.error e) ∈ acts) :
      Capped n answers acts outcome
  | reached {answers : List (Except ErrorChain (Batch κ ε))} (acts : List (Act κ ε))
      {cursor : κ} {chain : ErrorChain} (hfew : ¬ FailsInARow n answers)
      (hfails : FailsInARow n (answers ++ [.error chain])) :
      Capped n (answers ++ [.error chain]) (acts ++ [.fetched cursor (.error chain)])
        (.failed (.tooManyErrors n chain.message))

section
variable {n : Nat} {answers : List (Except ErrorChain (Batch κ ε))} {more : List (Act κ ε)}
  {outcome : Outcome κ}

theorem Capped.append (acts : List (Act κ ε)) (h : Capped n answers more outcome) :
    Capped n answers (acts ++ more) outcome := by
  cases h with
  | below hfew hsink =>
      apply Capped.below hfew
      intro e he
      obtain ⟨event, hmem⟩ := hsink e he
      exact ⟨event, List.mem_append_right acts hmem⟩
  | reached more hfew hfails =>
      rw [← List.append_assoc]
      exact .reached _ hfew hfails

theorem Capped.after_ok {before : List ErrorChain} {batch : Batch κ ε} (hbefore : before.length < n)
    (h : Capped n answers more outcome) :
    Capped n (before.map .error ++ .ok batch :: answers) more outcome := by
  cases h with
  | below hfew hsink => exact .below (mt (failsInARow_append_ok hbefore).mp hfew) hsink
  | @reached answers acts cursor chain hfew hfails =>
      rw [← List.cons_append, ← List.append_assoc]
      apply Capped.reached
      · exact mt (failsInARow_append_ok hbefore).mp hfew
      · rw [List.append_assoc, List.cons_append]
        exact (failsInARow_append_ok hbefore).mpr hfails

theorem Capped.of_failsInARow {acts : List (Act κ ε)}
    (h : Capped n ((fetches acts).map Prod.snd) acts outcome)
    (hfails : FailsInARow n ((fetches acts).map Prod.snd)) :
    ∃ front cursor chain, acts = front ++ [.fetched cursor (.error chain)] ∧
      ¬ FailsInARow n ((fetches front).map Prod.snd) ∧
      outcome = .failed (.tooManyErrors n chain.message) := by
  generalize hanswers : (fetches acts).map Prod.snd = answers at h hfails
  cases h with
  | below hfew => exact absurd hfails hfew
  | @reached answers front cursor chain hfew =>
      rw [fetches_append, List.map_append] at hanswers
      have hfront := List.append_cancel_right hanswers
      exact ⟨front, cursor, chain, rfl, hfront ▸ hfew, rfl⟩

theorem Capped.failsInARow {acts : List (Act κ ε)} {e : Error}
    (h : Capped n answers acts (.failed e))
    (hsink : ∀ event, .emitted event (.error e) ∉ acts) : FailsInARow n answers := by
  cases h with
  | below _ hrefused =>
      obtain ⟨event, hmem⟩ := hrefused e rfl
      exact absurd hmem (hsink event)
  | reached _ _ hfails => exact hfails

end

/-! A run. -/

section
variable [Cursor κ] {c : Config} {n budget : Nat} {p : Progress κ} {acts : List (Act κ ε)}
  {outcome : Outcome κ}

theorem Runs.capped (hretry : c.retry = .atMost n) (hn : 0 < n) (hmax : n < 2 ^ 32)
    (h : Runs c budget p acts outcome) (before : List ErrorChain)
    (hbefore : before.length = p.failures) (hlt : before.length < n) :
    Capped n (before.map .error ++ (fetches acts).map Prod.snd) acts outcome := by
  induction h generalizing before with
  | stopped =>
      rw [fetches_checked, fetches_nil, List.map_nil, List.append_nil]
      apply Capped.below (not_failsInARow before hlt)
      intro e he
      cases he
  | spent =>
      rw [fetches_checked, fetches_nil, List.map_nil, List.append_nil]
      apply Capped.below (not_failsInARow before hlt)
      intro e he
      cases he
  | @ended budget p acts e hpoll =>
      cases hpoll with
      | @refused batch emits e hemits =>
          rw [fetches_checked, fetches_fetched, hemits.fetches_eq_nil]
          apply Capped.after_ok hlt
          apply Capped.below (not_failsInARow [] hn)
          intro e' he
          cases he
          obtain ⟨front, event, back, -, rfl⟩ := hemits.exists_of_error
          exact ⟨event, by simp⟩
      | @exhausted chain hexhausted =>
          rw [hretry, RetryPolicy.isExhausted, decide_eq_true_eq] at hexhausted
          have hle : countFailure p.failures ≤ p.failures + 1 := Nat.min_le_left _ _
          have hlength : p.failures + 1 = n := by omega
          have hlast : countFailure p.failures = n := by omega
          have hfails : FailsInARow n
              (before.map .error ++ [.error chain] : List (Except ErrorChain (Batch κ ε))) :=
            ⟨before ++ [chain], by rw [List.length_append, hbefore]; exact hlength, by simp⟩
          rw [hlast]
          exact .reached [.checked false] (not_failsInARow before hlt) hfails
  | @polled budget p q acts more outcome hpoll _ ih =>
      cases hpoll with
      | @done batch emits emitted hemits =>
          have hfetches : fetches (.checked false ::
              (.fetched p.cursor (.ok batch) :: (emits ++ [.slept c.interval]) ++ more)) =
                (p.cursor, .ok batch) :: fetches more := by
            simp [hemits.fetches_eq_nil]
          rw [hfetches, List.map_cons]
          apply Capped.after_ok hlt
          exact (ih [] rfl hn).append (.checked false :: _)
      | @failed chain hexhausted =>
          have hcount : countFailure p.failures = p.failures + 1 := Nat.min_eq_left (by omega)
          rw [hretry, RetryPolicy.isExhausted, decide_eq_false_iff_not, hcount] at hexhausted
          have hlength : (before ++ [chain]).length = p.failures + 1 := by
            rw [List.length_append, hbefore]
            rfl
          have hmore := ih (before ++ [chain]) (hlength.trans hcount.symm) (by omega)
          rw [List.map_append, List.append_assoc] at hmore
          exact hmore.append [.checked false, .fetched p.cursor (.error chain), .slept c.pause]

end

/-- A monitor that puts up with less than `n` failures in a row finds too many errors when there are
`n`, and only then; an error of that kind may else be one that the sink has answered with. The last
failure is the last that the monitor does, and all that has arrived before has been emitted. A
monitor without a bound fails only with its sink. -/
theorem ceiling_of_failures [Cursor κ] [MonadClock (StateM ω)] (c : Config)
    (fetch : κ → StateM ω (Except ErrorChain (Batch κ ε))) (emit : ε → StateM ω (Except Error Unit))
    (budget : Nat) (initial : κ) (w : ω) :
    (∀ n, c.retry = .atMost n → 1 ≤ n → n < 2 ^ 32 →
      (FailsInARow n ((fetches (acts fetch emit c budget (.start initial) w)).map Prod.snd) ↔
        ∃ count last, ((run c fetch emit budget (.start initial)).run w).1 =
            .failed (.tooManyErrors count last) ∧
          ∀ event, .emitted event (.error (.tooManyErrors count last)) ∉
            acts fetch emit c budget (.start initial) w) ∧
      (FailsInARow n ((fetches (acts fetch emit c budget (.start initial) w)).map Prod.snd) →
        ∃ front cursor chain, acts fetch emit c budget (.start initial) w =
            front ++ [.fetched cursor (.error chain)] ∧
          ¬ FailsInARow n ((fetches front).map Prod.snd) ∧
          ((run c fetch emit budget (.start initial)).run w).1 =
            .failed (.tooManyErrors n chain.message) ∧
          (emissions (acts fetch emit c budget (.start initial) w)).map Prod.fst =
            arrivals (acts fetch emit c budget (.start initial) w))) ∧
    (c.retry = .ofMaxErrors 0 → ∀ e,
      ((run c fetch emit budget (.start initial)).run w).1 = .failed e →
      ∃ front event, acts fetch emit c budget (.start initial) w =
        front ++ [.emitted event (.error e)]) := by
  have hruns := runs_acts fetch emit c budget (.start initial) w
  generalize acts fetch emit c budget (.start initial) w = trace at hruns
  refine ⟨?_, ?_⟩
  · intro n hretry hn hmax
    have hcapped := hruns.capped hretry hn hmax [] rfl hn
    rw [List.map_nil, List.nil_append] at hcapped
    refine ⟨⟨?_, ?_⟩, ?_⟩
    · intro hfails
      obtain ⟨front, cursor, chain, rfl, -, houtcome⟩ := hcapped.of_failsInARow hfails
      refine ⟨n, chain.message, houtcome, ?_⟩
      intro event
      exact hruns.delivers.not_mem_of_fetched event _
    · rintro ⟨count, last, houtcome, hsink⟩
      rw [houtcome] at hcapped
      exact hcapped.failsInARow hsink
    · intro hfails
      obtain ⟨front, cursor, chain, rfl, hfew, houtcome⟩ := hcapped.of_failsInARow hfails
      refine ⟨front, cursor, chain, rfl, hfew, houtcome, ?_⟩
      rw [hruns.delivers.emissions_eq hruns.delivers.not_mem_of_fetched]
      exact map_fst_taken _
  · intro hretry e he
    have hends := hruns.ends
    rw [he] at hends
    cases hends with
    | refused front => exact ⟨front, _, rfl⟩
    | exhausted front hexhausted =>
        rw [hretry] at hexhausted
        cases hexhausted

/-- A source that fails at all moments but two. -/
def downFor (_ : Nat) : World.Sim (Except ErrorChain (Batch Nat String)) := do
  match (← get).clock.now with
  | 1000 => return .ok ⟨[], none⟩
  | 2000 => return .ok ⟨["a"], some 1⟩
  | _ => return .error ((ErrorChain.ofText "down").wrap "poll")

theorem ceiling_of_failures_down :
    (∃ trace, acts downFor narrow ⟨1000, none, .atMost 2⟩ 9 (.start 0) (World.start ⟨[]⟩ none) =
        trace ∧
      (fetches trace).length = 5 ∧ FailsInARow 2 ((fetches trace).map Prod.snd) ∧
      (emissions trace).map Prod.fst = ["a"] ∧
      ((run ⟨1000, none, .atMost 2⟩ downFor narrow 9 (.start 0)).run (World.start ⟨[]⟩ none)).1 =
        .failed (.tooManyErrors 2 "poll: down")) ∧
    ∃ front event, acts flaky narrow ⟨1000, none, .ofMaxErrors 0⟩ 9 (.start 10)
      (World.start ⟨[]⟩ none) = front ++ [.emitted event (.error (.io "full"))] := by
  obtain ⟨hbounded, -⟩ := ceiling_of_failures ⟨1000, none, .atMost 2⟩ downFor narrow 9 0
    (World.start ⟨[]⟩ none)
  obtain ⟨-, hunbounded⟩ := ceiling_of_failures ⟨1000, none, .ofMaxErrors 0⟩ flaky narrow 9 10
    (World.start ⟨[]⟩ none)
  obtain ⟨-, hreached⟩ := hbounded 2 rfl (by decide) (by decide)
  have hfails : FailsInARow 2 ((fetches (acts downFor narrow ⟨1000, none, .atMost 2⟩ 9 (.start 0)
      (World.start ⟨[]⟩ none))).map Prod.snd) :=
    ⟨[_, _], rfl, [_, _, _], [], rfl⟩
  obtain ⟨-, -, -, -, -, -, hevents⟩ := hreached hfails
  exact ⟨⟨_, rfl, rfl, hfails, hevents, rfl⟩, hunbounded rfl (.io "full") rfl⟩

end ChannelAdapter.Monitor
