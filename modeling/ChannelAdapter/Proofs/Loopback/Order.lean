import ChannelAdapter.Proofs.Loopback.Reply
import Mathlib.Data.List.DropRight
import Mathlib.Data.List.Nodup
/-!
The order of the statuses of a reply, whatever it is given and whichever of them cannot be written.
-/

namespace ChannelAdapter.Loopback.Reply

namespace Act

def given? : Act Stream.Status → Option Stream.Event
  | .given e => some e
  | .wrote _ _ => none

def created? : Act Stream.Status → Option String
  | .wrote (.created p) (.ok _) => some p.message
  | _ => none

def sent? : Act Stream.Status → Option String
  | .wrote (.sent p) (.ok _) => some p.message
  | _ => none

/-- Whether the messages that have been sent do not count any longer: a reply begins, or those of
one have been listed, even if the list could not be written. -/
def restarts : Act Stream.Status → Bool
  | .given (.start _) => true
  | .wrote (.complete _) _ => true
  | _ => false

end Act

variable {told acts : List (Act Stream.Status)} {r r' : Reply} {n n' : Nat} {a : Act Stream.Status}

def createdIds (told : List (Act Stream.Status)) : List String :=
  told.filterMap Act.created?

def sentIds (told : List (Act Stream.Status)) : List String :=
  told.filterMap Act.sent?

def sinceRestart (told : List (Act Stream.Status)) : List (Act Stream.Status) :=
  told.rtakeWhile fun a => !a.restarts

section
variable (told more : List (Act Stream.Status))

theorem createdIds_append : createdIds (told ++ more) = createdIds told ++ createdIds more :=
  List.filterMap_append

theorem sentIds_append : sentIds (told ++ more) = sentIds told ++ sentIds more :=
  List.filterMap_append

end

theorem createdIds_concat_of_none (h : a.created? = none) :
    createdIds (told ++ [a]) = createdIds told := by
  rw [createdIds_append]
  simp [createdIds, h]

theorem sentIds_concat_of_none (h : a.sent? = none) : sentIds (told ++ [a]) = sentIds told := by
  rw [sentIds_append]
  simp [sentIds, h]

theorem sentIds_sinceRestart_concat : sentIds (sinceRestart (told ++ [a])) =
    if a.restarts then [] else sentIds (sinceRestart told ++ [a]) := by
  rw [sinceRestart, List.rtakeWhile_concat]
  cases a.restarts <;> rfl

/-- The message is the latest that has been created, and it has not been sent. -/
def Grows (told : List (Act Stream.Status)) (message : String) : Prop :=
  (createdIds told).getLast? = some message ∧ message ∉ sentIds told

def Allowed (before : List (Act Stream.Status)) : Stream.Status → Prop
  | .updated p => Grows before p.message
  | .sent p => Grows before p.message
  | .complete p => p.messages = sentIds (sinceRestart before)
  | .created _ | .fault _ => True

def AllAllowed (told : List (Act Stream.Status)) : Prop :=
  ∀ before s after, told = before ++ .wrote s (.ok ()) :: after → Allowed before s

theorem concat_eq_around {α : Type} {xs before after : List α} {a b : α}
    (h : xs ++ [a] = before ++ b :: after) :
    xs = before ∧ a = b ∨ ∃ rest, xs = before ++ b :: rest := by
  induction after using List.reverseRecOn with
  | nil =>
      obtain ⟨hxs, ha⟩ := List.append_inj' h rfl
      exact .inl ⟨hxs, List.singleton_inj.mp ha⟩
  | append_singleton after c _ =>
      rw [← List.cons_append, ← List.append_assoc] at h
      exact .inr ⟨after, (List.append_inj' h rfl).1⟩

theorem AllAllowed.concat (h : AllAllowed told) (ha : ∀ s, a.written? = some s → Allowed told s) :
    AllAllowed (told ++ [a]) := by
  intro before s after hsplit
  obtain ⟨rfl, rfl⟩ | ⟨rest, hfront⟩ := concat_eq_around hsplit
  · exact ha s rfl
  · exact h before s rest hfront

/-- The messages are numbered in the order of their creation. -/
structure Orderly (told : List (Act Stream.Status)) : Prop where
  numbered : ∃ ns : List Nat, ns.Pairwise (· < ·) ∧ createdIds told = ns.map messageId
  distinct : (createdIds told).Nodup
  allowed : AllAllowed told

/-- What a reply knows of what it has told. `n` is the number of the last message. -/
structure Matches (told : List (Act Stream.Status)) (r : Reply) (n : Nat) : Prop where
  allowed : AllAllowed told
  numbered : ∃ ns : List Nat, ns.Pairwise (· < ·) ∧ (∀ k ∈ ns, k ≤ n) ∧
    createdIds told = ns.map messageId
  sent_created : sentIds told ⊆ createdIds told
  current : ∀ message, r.current = some message → Grows told message
  sent_eq : r.sent.reverse = sentIds (sinceRestart told)

theorem matches_start (n : Nat) : Matches [] .start n where
  allowed := by simp [AllAllowed]
  numbered := ⟨[], by simp, by simp, rfl⟩
  sent_created := by simp [sentIds]
  current := by simp [start]
  sent_eq := rfl

theorem Matches.orderly (h : Matches told r n) : Orderly told := by
  obtain ⟨ns, hpairwise, -, hcreated⟩ := h.numbered
  refine ⟨⟨ns, hpairwise, hcreated⟩, ?_, h.allowed⟩
  rw [hcreated]
  apply List.Nodup.map (fun _ _ => messageId_injective)
  exact hpairwise.imp Nat.ne_of_lt

theorem Matches.concat (h : Matches told r n) (hn : n ≤ n') (hcreated : a.created? = none)
    (hsent : a.sent? = none) (hallowed : ∀ s, a.written? = some s → Allowed told s)
    (hcurrent : ∀ message, r'.current = some message → r.current = some message)
    (hr : r'.sent = if a.restarts then [] else r.sent) : Matches (told ++ [a]) r' n' where
  allowed := h.allowed.concat hallowed
  numbered := by
    obtain ⟨ns, hpairwise, hle, hns⟩ := h.numbered
    refine ⟨ns, hpairwise, fun k hk => (hle k hk).trans hn, ?_⟩
    rw [createdIds_concat_of_none hcreated, hns]
  sent_created := by
    rw [createdIds_concat_of_none hcreated, sentIds_concat_of_none hsent]
    exact h.sent_created
  current := by
    intro message hmessage
    rw [Grows, createdIds_concat_of_none hcreated, sentIds_concat_of_none hsent]
    exact h.current message (hcurrent message hmessage)
  sent_eq := by
    rw [sentIds_sinceRestart_concat, sentIds_concat_of_none hsent, hr, ← h.sent_eq]
    split <;> rfl

theorem Matches.given {e : Stream.Event} (h : Matches told r n) (hcurrent : r'.current = r.current)
    (hr : r'.sent = if (Act.given e).restarts then [] else r.sent) :
    Matches (told ++ [.given e]) r' n := by
  apply h.concat le_rfl rfl rfl
  case hallowed => exact fun _ hs => nomatch hs
  case hcurrent => exact fun _ hmessage => hcurrent ▸ hmessage
  case hr => exact hr

theorem Matches.wrote {s : Stream.Status} {answer : Except String Unit} (h : Matches told r n)
    (hn : n ≤ n') (hcreated : (Act.wrote s answer).created? = none)
    (hsent : (Act.wrote s answer).sent? = none) (hallowed : Allowed told s)
    (hcurrent : ∀ message, r'.current = some message → r.current = some message)
    (hr : r'.sent = if (Act.wrote s answer).restarts then [] else r.sent) :
    Matches (told ++ [.wrote s answer]) r' n' := by
  apply h.concat hn hcreated hsent _ hcurrent hr
  intro s' hs'
  cases answer with
  | error => cases hs'
  | ok _ =>
      cases hs'
      exact hallowed

theorem Matches.created (h : Matches told r n) (hn : n + 1 ≤ n') :
    Matches (told ++ [.wrote (.created ⟨messageId (n + 1)⟩) (.ok ())])
      { r with current := some (messageId (n + 1)), size := 0 } n' := by
  obtain ⟨ns, hpairwise, hle, hns⟩ := h.numbered
  have hnew : messageId (n + 1) ∉ createdIds told := by
    rw [hns, List.mem_map]
    rintro ⟨k, hk, heq⟩
    have hkn := hle k hk
    have hsucc := messageId_injective heq
    omega
  constructor
  case allowed =>
    apply h.allowed.concat
    rintro _ ⟨⟩
    trivial
  case numbered =>
    refine ⟨ns ++ [n + 1], ?_, ?_, ?_⟩
    · rw [List.pairwise_append]
      refine ⟨hpairwise, List.pairwise_singleton _ _, ?_⟩
      intro k hk m hm
      rw [List.mem_singleton.mp hm]
      exact Nat.lt_succ_of_le (hle k hk)
    · rw [List.forall_mem_append, List.forall_mem_singleton]
      exact ⟨fun k hk => (hle k hk).trans (Nat.le_of_lt hn), hn⟩
    · rw [createdIds_append, hns, List.map_append]
      rfl
  case sent_created =>
    rw [createdIds_append, sentIds_concat_of_none rfl]
    exact List.subset_append_of_subset_left _ h.sent_created
  case current =>
    rintro _ ⟨⟩
    rw [Grows, createdIds_append, sentIds_concat_of_none rfl]
    exact ⟨List.getLast?_concat, fun hid => hnew (h.sent_created hid)⟩
  case sent_eq =>
    rw [sentIds_sinceRestart_concat, sentIds_concat_of_none rfl]
    exact h.sent_eq

theorem Matches.sent {id : String} {final : Bool} (h : Matches told r n)
    (hcurrent : r.current = some id) (hn : n ≤ n') :
    Matches (told ++ [.wrote (.sent ⟨id, final⟩) (.ok ())])
      { r with current := none, sent := id :: r.sent } n' := by
  constructor
  case allowed =>
    apply h.allowed.concat
    rintro _ ⟨⟩
    exact h.current id hcurrent
  case numbered =>
    obtain ⟨ns, hpairwise, hle, hns⟩ := h.numbered
    refine ⟨ns, hpairwise, fun k hk => (hle k hk).trans hn, ?_⟩
    rw [createdIds_concat_of_none rfl, hns]
  case sent_created =>
    rw [createdIds_concat_of_none rfl, sentIds_append]
    apply List.append_subset.mpr
    refine ⟨h.sent_created, ?_⟩
    intro k hk
    cases List.mem_singleton.mp hk
    exact List.mem_of_getLast? (h.current id hcurrent).1
  case current => exact fun _ hmessage => nomatch hmessage
  case sent_eq =>
    rw [sentIds_sinceRestart_concat, List.reverse_cons, h.sent_eq, sentIds_append]
    rfl

/-! What is kept by each of the relations. -/

theorem Opens.keeps {result : Except ErrorChain String} (h : Opens r n acts result r' n')
    (hm : Matches told r n) : Matches (told ++ acts) r' n' := by
  cases h with
  | opened hn => exact hm.created hn
  | refused hn => exact hm.wrote (Nat.le_of_lt hn) rfl rfl trivial (fun _ hmessage => hmessage) rfl

theorem Closes.keeps {final : Bool} {result : Except ErrorChain Unit}
    (h : Closes final r n acts result r' n') (hm : Matches told r n) :
    Matches (told ++ acts) r' n' := by
  cases h with
  | nothing => rwa [List.append_nil]
  | closed hcurrent hn => exact hm.sent hcurrent hn
  | refused hcurrent hn =>
      exact hm.wrote hn rfl rfl (hm.current _ hcurrent) (fun _ hmessage => nomatch hmessage) rfl

theorem Provides.keeps {limit : Nat} {text : String} {result : Except ErrorChain String}
    (h : Provides limit text r n acts result r' n') (hm : Matches told r n) :
    Matches (told ++ acts) r' n' := by
  cases h with
  | current => rwa [List.append_nil]
  | first _ _ hopens => exact hopens.keeps hm
  | next _ hcloses hopens =>
      rw [← List.append_assoc]
      exact hopens.keeps (hcloses.keeps hm)
  | unfinished _ hcloses => exact hcloses.keeps hm

theorem Opens.current_eq {id : String} (h : Opens r n acts (.ok id) r' n') :
    r'.current = some id := by
  cases h
  rfl

theorem Provides.current_eq {limit : Nat} {text id : String}
    (h : Provides limit text r n acts (.ok id) r' n') : r'.current = some id := by
  cases h with
  | current _ hcurrent => exact hcurrent
  | first _ _ hopens => exact hopens.current_eq
  | next _ _ hopens => exact hopens.current_eq

theorem Takes.keeps {limit : Nat} {e : Stream.Event} (h : Takes limit r n e acts r' n')
    (hm : Matches told r n) : Matches (told ++ .given e :: acts) r' n' := by
  rw [List.append_cons]
  cases h with
  | start hopens => exact hopens.keeps (hm.given rfl rfl)
  | @token p _ _ _ _ _ _ hprovides hn =>
      rw [← List.append_assoc]
      have hprovided := hprovides.keeps (hm.given (e := .token p) rfl rfl)
      exact hprovided.wrote hn rfl rfl (hprovided.current _ hprovides.current_eq)
        (fun _ hmessage => hmessage) rfl
  | unprovided hprovides => exact hprovides.keeps (hm.given rfl rfl)
  | tool =>
      rw [List.append_nil]
      exact hm.given rfl rfl
  | reasoning =>
      rw [List.append_nil]
      exact hm.given rfl rfl
  | paused _ hcloses => exact hcloses.keeps (hm.given rfl rfl)
  | @complete p _ _ _ _ _ _ hcloses hn =>
      rw [← List.append_assoc]
      have hclosed := hcloses.keeps (hm.given (e := .finish p) rfl rfl)
      exact hclosed.wrote hn rfl rfl hclosed.sent_eq (fun _ hmessage => hmessage) rfl
  | incomplete _ hcloses => exact hcloses.keeps (hm.given rfl rfl)
  | @failure p _ _ _ _ _ hcloses hn =>
      rw [← List.append_assoc]
      have hclosed := hcloses.keeps (hm.given (e := .failure p) rfl rfl)
      exact hclosed.wrote hn rfl rfl trivial (fun _ hmessage => hmessage) rfl
  | untold hcloses => exact hcloses.keeps (hm.given rfl rfl)

theorem Replies.keeps {limit : Nat} {events : List Stream.Event}
    {more : List (Act Stream.Status)} (h : Replies limit r n events more r' n')
    (hm : Matches told r n) : Matches (told ++ more) r' n' := by
  induction h generalizing told with
  | done => rwa [List.append_nil]
  | taken htakes _ ih =>
      rw [← List.cons_append, ← List.append_assoc]
      exact ih (htakes.keeps hm)

/-! Among its acts a reply is given the events, and nothing else. -/

def events (told : List (Act Stream.Status)) : List Stream.Event :=
  told.filterMap Act.given?

theorem events_append (more : List (Act Stream.Status)) :
    events (told ++ more) = events told ++ events more :=
  List.filterMap_append

theorem Opens.events_eq_nil {result : Except ErrorChain String}
    (h : Opens r n acts result r' n') : events acts = [] := by
  cases h <;> rfl

theorem Closes.events_eq_nil {final : Bool} {result : Except ErrorChain Unit}
    (h : Closes final r n acts result r' n') : events acts = [] := by
  cases h <;> rfl

theorem Provides.events_eq_nil {limit : Nat} {text : String} {result : Except ErrorChain String}
    (h : Provides limit text r n acts result r' n') : events acts = [] := by
  cases h with
  | current => rfl
  | first _ _ hopens => exact hopens.events_eq_nil
  | next _ hcloses hopens => rw [events_append, hcloses.events_eq_nil, hopens.events_eq_nil]; rfl
  | unfinished _ hcloses => exact hcloses.events_eq_nil

theorem Takes.events_eq_nil {limit : Nat} {e : Stream.Event} (h : Takes limit r n e acts r' n') :
    events acts = [] := by
  cases h with
  | start hopens => exact hopens.events_eq_nil
  | token hprovides => rw [events_append, hprovides.events_eq_nil]; rfl
  | unprovided hprovides => exact hprovides.events_eq_nil
  | tool => rfl
  | reasoning => rfl
  | paused _ hcloses => exact hcloses.events_eq_nil
  | complete _ hcloses => rw [events_append, hcloses.events_eq_nil]; rfl
  | incomplete _ hcloses => exact hcloses.events_eq_nil
  | failure hcloses => rw [events_append, hcloses.events_eq_nil]; rfl
  | untold hcloses => exact hcloses.events_eq_nil

theorem Replies.events_eq {limit : Nat} {es : List Stream.Event}
    (h : Replies limit r n es acts r' n') : events acts = es := by
  induction h with
  | done => rfl
  | @taken _ _ _ _ _ _ e _ _ _ htakes _ ih =>
      rw [← List.singleton_append, events_append, events_append, htakes.events_eq_nil, ih]
      rfl

/-- Whatever events a reply is given and whichever of its statuses are refused: its messages are
numbered upward; it updates and finishes none but the latest, and none that has been finished; and a
list of messages names the ones that have been finished since the reply began or the list before. -/
theorem statuses_in_order {ω : Type} [MonadOutput (StateM ω)] [MonadStateOf Ids (StateM ω)]
    {last : ω → Nat} (h : Numbers last) (limit : Nat) (es : List Stream.Event) (w : ω) :
    ∃ told, Reply.acts limit .start es w = told.map (Act.map statusLine) ∧ events told = es ∧
      Orderly told := by
  obtain ⟨told, r', n', hacts, hreplies⟩ := replies_acts h limit .start es w
  exact ⟨told, hacts, hreplies.events_eq, (hreplies.keeps (matches_start _)).orderly⟩

structure Sink where
  refuses : List Bool
  ids : Ids

instance : MonadOutput (StateM Sink) where
  put _ := modifyGet fun w =>
    (if w.refuses.headD false then .error "full" else .ok (), { w with refuses := w.refuses.tail })

instance (priority := low) : MonadStateOf Ids (StateM Sink) where
  get := return (← get).ids
  set ids := modify fun w => { w with ids }
  modifyGet f := modifyGet fun w => ((f w.ids).1, { w with ids := (f w.ids).2 })

theorem numbers_sink : Numbers (ω := Sink) (·.ids.last) where
  get _ := rfl
  set _ _ := rfl
  put _ _ := le_rfl

def rollingOver : List Stream.Event :=
  [.start ⟨none, none, none⟩, .token ⟨"abc"⟩, .token ⟨"def"⟩, .token ⟨"g"⟩, .finish ⟨none, true⟩]

def Sink.refusingThird : Sink := ⟨[false, false, true], ⟨0⟩⟩

/-- The first message is lost, since it cannot be told that it is finished. -/
theorem statuses_in_order_lost_message :
    ∃ told, Reply.acts 5 .start rollingOver Sink.refusingThird = told.map (Act.map statusLine) ∧
      events told = rollingOver ∧ Orderly told ∧ told.length = 12 := by
  obtain ⟨told, hacts, hevents, horderly⟩ :=
    statuses_in_order numbers_sink 5 rollingOver Sink.refusingThird
  refine ⟨told, hacts, hevents, horderly, ?_⟩
  rw [← List.length_map (Act.map statusLine), ← hacts]
  decide +kernel

end ChannelAdapter.Loopback.Reply
