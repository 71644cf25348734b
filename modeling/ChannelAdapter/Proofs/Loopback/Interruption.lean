import ChannelAdapter.Proofs.Loopback.Messages
/-!
Replies that begin while a message grows. A reply that is begun opens a message, and does not finish
the one that grows; in all other cases a message is opened only when the one before is finished.
-/

namespace ChannelAdapter.Loopback.Reply

variable {told acts : List (Act Stream.Status)} {a : Act Stream.Status} {r r' : Reply}
  {n n' limit : Nat}

/-- Whether a message grows after an event, if the event makes a difference. -/
def growsAfter? : Stream.Event → Option Bool
  | .start _ | .token _ => some true
  | .finish _ | .failure _ => some false
  | .tool _ | .reasoning _ => none

def Growing (es : List Stream.Event) : Prop :=
  (es.filterMap growsAfter?).getLast? = some true

/-- The latest message that has been created, if there is one, has been sent. -/
def Finished (told : List (Act Stream.Status)) : Prop :=
  ∀ message, (createdIds told).getLast? = some message → message ∈ sentIds told

/-- A reply has just begun, and a message was growing. -/
def Interrupts (told : List (Act Stream.Status)) : Prop :=
  ∃ before p, told = before ++ [.given (.start p)] ∧ Growing (events before)

/-- Each message is created when the one before has been sent, unless a reply interrupts it. -/
def InTurn (told : List (Act Stream.Status)) : Prop :=
  ∀ before p after, told = before ++ .wrote (.created p) (.ok ()) :: after →
    (Finished before ↔ ¬ Interrupts before)

/-! Single acts. -/

theorem growing_concat (es : List Stream.Event) (e : Stream.Event) :
    Growing (es ++ [e]) ↔ growsAfter? e = some true ∨ growsAfter? e = none ∧ Growing es := by
  rw [Growing, List.filterMap_append]
  cases h : growsAfter? e with
  | none => simp [h, Growing]
  | some b => simp [h]

theorem interrupts_concat : Interrupts (told ++ [a]) ↔
    ∃ p, a = .given (.start p) ∧ Growing (events told) := by
  constructor
  · rintro ⟨before, p, hsplit, hgrowing⟩
    obtain ⟨rfl, hact⟩ := List.append_inj' hsplit rfl
    exact ⟨p, List.singleton_inj.mp hact, hgrowing⟩
  · rintro ⟨p, rfl, hgrowing⟩
    exact ⟨told, p, rfl, hgrowing⟩

theorem Finished.concat (h : Finished told) (hcreated : a.created? = none) :
    Finished (told ++ [a]) := by
  intro message hmessage
  rw [createdIds_concat_of_none hcreated] at hmessage
  rw [sentIds_append]
  exact List.mem_append_left _ (h message hmessage)

theorem finished_sent {id : String} {final : Bool} (h : Grows told id) :
    Finished (told ++ [.wrote (.sent ⟨id, final⟩) (.ok ())]) := by
  intro message hmessage
  rw [createdIds_concat_of_none rfl, h.1] at hmessage
  cases hmessage
  rw [sentIds_append]
  exact List.mem_append_right _ (List.mem_singleton_self id)

theorem Grows.not_finished {id : String} (h : Grows told id) : ¬ Finished told :=
  fun hfinished => h.2 (hfinished id h.1)

theorem inTurn_nil : InTurn [] := by
  intro before p after hsplit
  cases before <;> cases hsplit

theorem InTurn.concat (h : InTurn told)
    (ha : ∀ p, a = .wrote (.created p) (.ok ()) → (Finished told ↔ ¬ Interrupts told)) :
    InTurn (told ++ [a]) := by
  intro before p after hsplit
  obtain ⟨rfl, rfl⟩ | ⟨rest, hfront⟩ := concat_eq_around hsplit
  · exact ha p rfl
  · exact h before p rest hfront

theorem InTurn.skip (h : InTurn told) (hcreated : a.created? = none) : InTurn (told ++ [a]) := by
  apply h.concat
  rintro p rfl
  cases hcreated

/-! What is kept by each of the relations, if no status is refused. -/

structure Tracks (told : List (Act Stream.Status)) (r : Reply) (n : Nat) : Prop
    extends Matches told r n where
  inTurn : InTurn told
  finished : r.current = none → Finished told

theorem tracks_start (n : Nat) : Tracks [] .start n where
  toMatches := matches_start n
  inTurn := inTurn_nil
  finished _ := fun _ => nofun

theorem Tracks.finished_iff (h : Tracks told r n) : Finished told ↔ r.current = none := by
  refine ⟨fun hfinished => ?_, h.finished⟩
  cases hcurrent : r.current with
  | none => rfl
  | some message => exact absurd hfinished (h.current message hcurrent).not_finished

theorem Tracks.concat (h : Tracks told r n) (hmatches : Matches (told ++ [a]) r' n')
    (hcreated : a.created? = none) (hcurrent : r'.current = r.current) :
    Tracks (told ++ [a]) r' n' where
  toMatches := hmatches
  inTurn := h.inTurn.skip hcreated
  finished hnone := (h.finished (hcurrent ▸ hnone)).concat hcreated

theorem Tracks.hears (h : Tracks told r n) (e : Stream.Event)
    (hrestarts : (Act.given e).restarts = false) : Tracks (told ++ [.given e]) r n :=
  h.concat (h.given rfl (by rw [hrestarts]; rfl)) rfl rfl

theorem Opens.tracks {result : Except ErrorChain String} (h : Opens r n acts result r' n')
    (hworks : Unrefused acts) (ht : Tracks told r n)
    (hturn : r.current = none ↔ ¬ Interrupts told) :
    Tracks (told ++ acts) r' n' ∧ result = .ok (messageId (n + 1)) ∧
      r'.current = some (messageId (n + 1)) := by
  have hmatches := h.keeps ht.toMatches
  obtain ⟨rfl, rfl, rfl⟩ := h.of_unrefused hworks
  refine ⟨⟨hmatches, ht.inTurn.concat fun p _ => ?_, nofun⟩, rfl, rfl⟩
  rw [ht.finished_iff, hturn]

theorem Closes.tracks {final : Bool} {result : Except ErrorChain Unit}
    (h : Closes final r n acts result r' n') (hworks : Unrefused acts) (ht : Tracks told r n) :
    Tracks (told ++ acts) r' n' ∧ result = .ok () := by
  have hmatches := h.keeps ht.toMatches
  cases h with
  | nothing =>
      rw [List.append_nil]
      exact ⟨ht, rfl⟩
  | closed hcurrent =>
      refine ⟨⟨hmatches, ht.inTurn.skip rfl, fun _ => ?_⟩, rfl⟩
      exact finished_sent (ht.current _ hcurrent)
  | refused => exact nomatch hworks _ (List.mem_singleton_self _)

theorem Closes.not_interrupts {final : Bool} {result : Except ErrorChain Unit}
    (h : Closes final r n acts result r' n') (hnot : ¬ Interrupts told) :
    ¬ Interrupts (told ++ acts) := by
  cases h with
  | nothing => rwa [List.append_nil]
  | closed | refused => simp [interrupts_concat]

theorem Provides.tracks {text : String} {result : Except ErrorChain String}
    (h : Provides limit text r n acts result r' n') (hworks : Unrefused acts)
    (ht : Tracks told r n) (hnot : ¬ Interrupts told) :
    Tracks (told ++ acts) r' n' ∧ ∃ id, result = .ok id ∧ r'.current = some id := by
  cases h with
  | @current id _ hcurrent =>
      rw [List.append_nil]
      exact ⟨ht, id, rfl, hcurrent⟩
  | first _ hnone hopens =>
      obtain ⟨htracks, hresult, hcurrent⟩ :=
        hopens.tracks hworks ht ⟨fun _ => hnot, fun _ => hnone⟩
      exact ⟨htracks, _, hresult, hcurrent⟩
  | next _ hcloses hopens =>
      rw [unrefused_append] at hworks
      obtain ⟨hclosed, -⟩ := hcloses.tracks hworks.1 ht
      rw [← List.append_assoc]
      obtain ⟨htracks, hresult, hcurrent⟩ := hopens.tracks hworks.2 hclosed
        ⟨fun _ => hcloses.not_interrupts hnot, fun _ => hcloses.current_eq_none⟩
      exact ⟨htracks, _, hresult, hcurrent⟩
  | unfinished _ hcloses => cases (hcloses.tracks hworks ht).2

theorem Takes.tracks {e : Stream.Event} (h : Takes limit r n e acts r' n')
    (hworks : Unrefused acts) (ht : Tracks told r n)
    (hgrowing : Growing (events told) ↔ r.current ≠ none) :
    Tracks (told ++ .given e :: acts) r' n' ∧
      (Growing (events (told ++ .given e :: acts)) ↔ r'.current ≠ none) := by
  have hmatches := h.keeps ht.toMatches
  have hevents : events (told ++ .given e :: acts) = events told ++ [e] := by
    rw [events_append, ← List.singleton_append, events_append, h.events_eq_nil]
    rfl
  rw [hevents, growing_concat]
  rw [List.append_cons] at hmatches ⊢
  cases h with
  | @start p _ _ _ _ hopens =>
      have hgiven : Tracks (told ++ [.given (.start p)]) { r with sent := [] } n :=
        ht.concat (ht.given rfl rfl) rfl rfl
      have hturn : r.current = none ↔ ¬ Interrupts (told ++ [.given (.start p)]) := by
        rw [interrupts_concat]
        simp [hgrowing]
      obtain ⟨htracks, -, hcurrent⟩ := hopens.tracks hworks hgiven hturn
      exact ⟨htracks, by simp [growsAfter?, hcurrent]⟩
  | @token p _ id _ _ _ answer hprovides hn =>
      rw [unrefused_append] at hworks
      obtain ⟨htracks, _, _, hcurrent⟩ :=
        hprovides.tracks hworks.1 (ht.hears (.token p) rfl) (by simp [interrupts_concat])
      rw [← List.append_assoc] at hmatches ⊢
      exact ⟨htracks.concat hmatches rfl rfl, by simp [growsAfter?, hcurrent]⟩
  | @unprovided p _ _ _ _ hprovides =>
      obtain ⟨-, _, hresult, -⟩ :=
        hprovides.tracks hworks (ht.hears (.token p) rfl) (by simp [interrupts_concat])
      cases hresult
  | tool | reasoning =>
      rw [List.append_nil] at hmatches ⊢
      exact ⟨ht.concat hmatches rfl rfl, by simp [growsAfter?, hgrowing]⟩
  | @paused p _ _ _ _ _ hcloses =>
      obtain ⟨htracks, -⟩ := hcloses.tracks hworks (ht.hears (.finish p) rfl)
      exact ⟨htracks, by simp [growsAfter?, hcloses.current_eq_none]⟩
  | @complete p _ _ _ _ _ _ hcloses hn =>
      rw [unrefused_append] at hworks
      obtain ⟨htracks, -⟩ := hcloses.tracks hworks.1 (ht.hears (.finish p) rfl)
      rw [← List.append_assoc] at hmatches ⊢
      exact ⟨htracks.concat hmatches rfl rfl, by simp [growsAfter?, hcloses.current_eq_none]⟩
  | @incomplete p _ _ _ _ _ hcloses =>
      cases (hcloses.tracks hworks (ht.hears (.finish p) rfl)).2
  | @failure p _ _ _ _ _ hcloses hn =>
      rw [unrefused_append] at hworks
      obtain ⟨htracks, -⟩ := hcloses.tracks hworks.1 (ht.hears (.failure p) rfl)
      rw [← List.append_assoc] at hmatches ⊢
      exact ⟨htracks.concat hmatches rfl rfl, by simp [growsAfter?, hcloses.current_eq_none]⟩
  | @untold p _ _ _ _ hcloses =>
      cases (hcloses.tracks hworks (ht.hears (.failure p) rfl)).2

theorem Replies.tracks {es : List Stream.Event} {more : List (Act Stream.Status)}
    (h : Replies limit r n es more r' n') (hworks : Unrefused more) (ht : Tracks told r n)
    (hgrowing : Growing (events told) ↔ r.current ≠ none) : Tracks (told ++ more) r' n' := by
  induction h generalizing told with
  | done => rwa [List.append_nil]
  | taken htakes _ ih =>
      rw [unrefused_cons, unrefused_append] at hworks
      obtain ⟨htaken, hnext⟩ := htakes.tracks hworks.2.1 ht hgrowing
      rw [← List.cons_append, ← List.append_assoc]
      exact ih hworks.2.2 htaken hnext

theorem Replies.exists_takes {before after : List Stream.Event} {e : Stream.Event}
    (h : Replies limit r n (before ++ e :: after) told r' n') :
    ∃ front acts rest r₁ n₁ r₂ n₂, told = front ++ .given e :: (acts ++ rest) ∧
      events front = before ∧ Takes limit r₁ n₁ e acts r₂ n₂ := by
  induction before generalizing r n told with
  | nil =>
      cases h with
      | @taken _ _ _ _ _ _ _ _ acts more htakes _ =>
          exact ⟨[], acts, more, r, n, _, _, rfl, rfl, htakes⟩
  | cons first before ih =>
      cases h with
      | @taken _ _ _ _ _ _ _ _ acts more htakes hreplies =>
          obtain ⟨front, acts', rest, r₁, n₁, r₂, n₂, rfl, hfront, htaken⟩ := ih hreplies
          refine ⟨.given first :: (acts ++ front), acts', rest, r₁, n₁, r₂, n₂, ?_, ?_, htaken⟩
          · rw [List.cons_append, List.append_assoc]
          · rw [← List.singleton_append, events_append, events_append, htakes.events_eq_nil, hfront]
            rfl

theorem Replies.exists_created {before after : List Stream.Event} {p : Stream.Start}
    (h : Replies limit r n (before ++ .start p :: after) told r' n') (hworks : Unrefused told) :
    ∃ front q rest, told = front ++ .given (.start p) :: .wrote (.created q) (.ok ()) :: rest ∧
      events front = before := by
  obtain ⟨front, acts, rest, _, _, _, _, rfl, hfront, htakes⟩ := h.exists_takes
  rw [unrefused_append, unrefused_cons, unrefused_append] at hworks
  cases htakes with
  | start hopens =>
      obtain ⟨rfl, -, -⟩ := hopens.of_unrefused hworks.2.2.1
      exact ⟨front, _, rest, rfl, hfront⟩

theorem Replies.inTurn {es : List Stream.Event} (h : Replies limit .start n es told r' n')
    (hworks : Unrefused told) : InTurn told :=
  (h.tracks hworks (tracks_start n) (by simp [events, Growing, start])).inTurn

/-- If none of its statuses is refused, then a reply creates each message after it has finished the
one before, unless the message is the first of a reply that begins while a message grows. So no
message is left unfinished if and only if no reply begins while a message grows. -/
theorem creations_in_turn {ω : Type} [MonadOutput (StateM ω)] [MonadStateOf Ids (StateM ω)]
    {last : ω → Nat} (h : Numbers last) (limit : Nat) (es : List Stream.Event) (w : ω)
    (hworks : Unrefused (Reply.acts limit .start es w)) :
    ∃ told, Reply.acts limit .start es w = told.map (Act.map statusLine) ∧ events told = es ∧
      InTurn told ∧
      ((∀ before p after, told = before ++ .wrote (.created p) (.ok ()) :: after →
          Finished before) ↔
        ∀ before p after, es = before ++ .start p :: after → ¬ Growing before) := by
  obtain ⟨told, r', n', hacts, hreplies⟩ := replies_acts h limit .start es w
  rw [hacts, unrefused_map] at hworks
  have hturn := hreplies.inTurn hworks
  refine ⟨told, hacts, hreplies.events_eq, hturn, ?_, ?_⟩
  · rintro hfinished before p after rfl hgrowing
    obtain ⟨front, q, rest, hsplit, rfl⟩ := hreplies.exists_created hworks
    rw [List.append_cons] at hsplit
    have hnot := (hturn _ q rest hsplit).mp (hfinished _ q rest hsplit)
    exact hnot ⟨front, p, rfl, hgrowing⟩
  · intro hquiet before p after hsplit
    refine (hturn before p after hsplit).mpr ?_
    rintro ⟨front, q, rfl, hgrowing⟩
    have hevents : events told = events front ++ .start q :: events after := by
      rw [hsplit, events_append, events_append, List.append_assoc]
      rfl
    exact hquiet (events front) q (events after) (hreplies.events_eq.symm.trans hevents) hgrowing

def Sink.taking : Sink := ⟨[], ⟨0⟩⟩

/-- The second reply begins while the message of the first one grows, and the third when that of the
second has been finished. -/
def interrupting : List Stream.Event :=
  [.start ⟨none, none, none⟩, .token ⟨"abc"⟩, .tool ⟨"find", none, none, none⟩,
    .start ⟨none, none, none⟩, .finish ⟨none, false⟩, .start ⟨none, none, none⟩]

theorem creations_in_turn_interrupting :
    Unrefused (Reply.acts 5 .start interrupting Sink.taking) ∧
      ∃ told, Reply.acts 5 .start interrupting Sink.taking = told.map (Act.map statusLine) ∧
        events told = interrupting ∧ InTurn told ∧
        ((∀ before p after, told = before ++ .wrote (.created p) (.ok ()) :: after →
            Finished before) ↔
          ∀ before p after, interrupting = before ++ .start p :: after → ¬ Growing before) := by
  have hworks : Unrefused (Reply.acts 5 .start interrupting Sink.taking) := by
    unfold Unrefused
    decide +kernel
  exact ⟨hworks, creations_in_turn numbers_sink 5 interrupting Sink.taking hworks⟩

/-- The message of a reply that is interrupted is left unfinished. -/
theorem not_forall_creations_finished :
    ¬ ∀ (limit : Nat) (es : List Stream.Event) (told : List (Act Stream.Status)),
      Unrefused told → Reply.acts limit .start es Sink.taking = told.map (Act.map statusLine) →
      ∀ before p after, told = before ++ .wrote (.created p) (.ok ()) :: after →
        Finished before := by
  intro h
  let begun : Act Stream.Status := .given (.start ⟨none, none, none⟩)
  let created (n : Nat) : Act Stream.Status := .wrote (.created ⟨messageId n⟩) (.ok ())
  have hfinished := h 5 [.start ⟨none, none, none⟩, .start ⟨none, none, none⟩]
    [begun, created 1, begun, created 2] (by simp [Unrefused, begun, created, Act.isRefused]) rfl
    [begun, created 1, begun] ⟨messageId 2⟩ [] rfl
  cases hfinished (messageId 1) rfl

end ChannelAdapter.Loopback.Reply
