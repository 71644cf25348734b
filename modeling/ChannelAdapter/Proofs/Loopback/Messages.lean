import Mathlib.Algebra.GroupWithZero.Nat
import ChannelAdapter.Proofs.Loopback.Order
import ChannelAdapter.Proofs.World
/-!
The messages of a reply. A reply that is told in tokens goes into messages, each of which takes some
of the tokens, in their order.
-/

namespace ChannelAdapter.Loopback.Reply

def totalSize (tokens : List String) : Nat :=
  (tokens.map String.utf8ByteSize).sum

structure Message where
  id : String
  tokens : List String

namespace Message

def updates (m : Message) : List Stream.Status :=
  (List.range m.tokens.length).map fun k => .updated ⟨m.id, totalSize (m.tokens.take (k + 1))⟩

/-- The statuses of a message that grows. -/
def growth (m : Message) : List Stream.Status :=
  .created ⟨m.id⟩ :: m.updates

def statuses (final : Bool) (m : Message) : List Stream.Status :=
  m.growth ++ [.sent ⟨m.id, final⟩]

/-- A message exceeds the limit only by a single token, the others being empty. -/
def Fits (limit : Nat) (m : Message) : Prop :=
  limit < totalSize m.tokens →
    ∃ empties token, m.tokens = empties ++ [token] ∧ (∀ t ∈ empties, t = "") ∧
      limit < token.utf8ByteSize

def push (m : Message) (token : String) : Message :=
  { m with tokens := m.tokens ++ [token] }

end Message

section
variable (tokens : List String) (token : String) (m : Message) (limit : Nat)

theorem totalSize_concat :
    totalSize (tokens ++ [token]) = totalSize tokens + token.utf8ByteSize := by
  simp [totalSize]

theorem forall_eq_empty_of_totalSize (h : totalSize tokens = 0) : ∀ t ∈ tokens, t = "" := by
  induction tokens with
  | nil => simp
  | cons t tokens ih =>
      rw [totalSize, List.map_cons, List.sum_cons, Nat.add_eq_zero_iff] at h
      rw [List.forall_mem_cons]
      exact ⟨String.utf8ByteSize_eq_zero_iff.mp h.1, ih h.2⟩

namespace Message

theorem growth_push : (m.push token).growth =
    m.growth ++ [.updated ⟨m.id, totalSize m.tokens + token.utf8ByteSize⟩] := by
  have hfront : ∀ k ∈ List.range m.tokens.length,
      (Stream.Status.updated ⟨m.id, totalSize ((m.tokens ++ [token]).take (k + 1))⟩) =
        .updated ⟨m.id, totalSize (m.tokens.take (k + 1))⟩ := by
    intro k hk
    rw [List.take_append_of_le_length (List.mem_range.mp hk)]
  simp only [growth, updates, push, List.length_append, List.length_singleton, List.range_succ,
    List.map_append, List.map_congr_left hfront, List.map_singleton, List.cons_append]
  rw [List.take_of_length_le (by simp), totalSize_concat]

theorem Fits.push {r : Reply} (hsize : r.size = totalSize m.tokens)
    (hroom : r.overflows limit token = false) (hpos : 0 < limit) : (m.push token).Fits limit := by
  intro hlong
  have hlong : limit < totalSize m.tokens + token.utf8ByteSize :=
    totalSize_concat m.tokens token ▸ hlong
  simp only [overflows, hsize, hpos, decide_true, Bool.true_and, Bool.and_eq_false_imp,
    decide_eq_true_eq, decide_eq_false_iff_not] at hroom
  have hzero : totalSize m.tokens = 0 := by
    by_contra hne
    exact hroom (Nat.pos_of_ne_zero hne) hlong
  refine ⟨m.tokens, token, rfl, forall_eq_empty_of_totalSize m.tokens hzero, ?_⟩
  omega

end Message

end

def written {τ : Type} (acts : List (Act τ)) : List τ :=
  acts.filterMap Act.written?

def Unrefused {τ : Type} (acts : List (Act τ)) : Prop :=
  ∀ a ∈ acts, a.isRefused = false

section
variable {limit n n' : Nat} {r r' : Reply} {told acts more : List (Act Stream.Status)}
  {tokens : List String} {front : List Message} {m : Message}

theorem written_append : written (told ++ more) = written told ++ written more :=
  List.filterMap_append

theorem unrefused_append : Unrefused (told ++ more) ↔ Unrefused told ∧ Unrefused more :=
  List.forall_mem_append

theorem unrefused_cons {a : Act Stream.Status} :
    Unrefused (a :: told) ↔ a.isRefused = false ∧ Unrefused told :=
  List.forall_mem_cons

/-- What is told of the messages of a reply, the last one of which is final. -/
def delivery (front : List Message) (m : Message) : List Stream.Status :=
  front.flatMap (·.statuses false) ++ m.statuses true ++ [.complete ⟨(front ++ [m]).map (·.id)⟩]

structure Divides (limit : Nat) (tokens : List String) (messages : List Message) : Prop where
  tokens_eq : messages.flatMap (·.tokens) = tokens
  fits : 0 < limit → ∀ m ∈ messages, m.Fits limit
  single : limit = 0 → messages.length = 1

theorem divides_first (limit : Nat) (id : String) : Divides limit [] [⟨id, []⟩] where
  tokens_eq := rfl
  fits := by simp [Message.Fits, totalSize]
  single _ := rfl

theorem Divides.next (h : Divides limit tokens front) (hpos : 0 < limit) (id : String) :
    Divides limit tokens (front ++ [⟨id, []⟩]) where
  tokens_eq := by
    rw [List.flatMap_append, h.tokens_eq]
    exact List.append_nil _
  fits := by
    intro _
    rw [List.forall_mem_append]
    exact ⟨h.fits hpos, by simp [Message.Fits, totalSize]⟩
  single hzero := absurd hzero (Nat.ne_of_gt hpos)

theorem Divides.push (h : Divides limit tokens (front ++ [m])) {text : String}
    (hsize : r.size = totalSize m.tokens) (hroom : r.overflows limit text = false) :
    Divides limit (tokens ++ [text]) (front ++ [m.push text]) where
  tokens_eq := by
    rw [← h.tokens_eq]
    simp [Message.push]
  fits := by
    intro hpos
    have hfront := h.fits hpos
    rw [List.forall_mem_append, List.forall_mem_singleton] at hfront ⊢
    exact ⟨hfront.1, Message.Fits.push text m limit hsize hroom hpos⟩
  single := by
    intro hzero
    have hlength := h.single hzero
    rw [List.length_append] at hlength ⊢
    exact hlength

/-- A reply of which some tokens have been told: the last of its messages grows. -/
structure Telling (limit : Nat) (tokens : List String) (front : List Message) (m : Message)
    (r : Reply) (told : List (Act Stream.Status)) : Prop where
  divides : Divides limit tokens (front ++ [m])
  written_eq : written told = front.flatMap (·.statuses false) ++ m.growth
  created_eq : createdIds told = (front ++ [m]).map (·.id)
  current_eq : r.current = some m.id
  size_eq : r.size = totalSize m.tokens
  sent_eq : r.sent.reverse = front.map (·.id)

theorem Opens.of_unrefused {result : Except ErrorChain String} (h : Opens r n acts result r' n')
    (hworks : Unrefused acts) :
    acts = [.wrote (.created ⟨messageId (n + 1)⟩) (.ok ())] ∧
      result = .ok (messageId (n + 1)) ∧
      r' = { r with current := some (messageId (n + 1)), size := 0 } := by
  cases h with
  | opened => exact ⟨rfl, rfl, rfl⟩
  | refused => exact nomatch hworks _ (List.mem_singleton_self _)

theorem Closes.of_unrefused {final : Bool} {id : String} {result : Except ErrorChain Unit}
    (h : Closes final r n acts result r' n') (hworks : Unrefused acts)
    (hcurrent : r.current = some id) :
    acts = [.wrote (.sent ⟨id, final⟩) (.ok ())] ∧ result = .ok () ∧
      r' = { r with current := none, sent := id :: r.sent } := by
  cases h with
  | nothing hnone => cases hcurrent.symm.trans hnone
  | closed hsome =>
      cases hcurrent.symm.trans hsome
      exact ⟨rfl, rfl, rfl⟩
  | refused => exact nomatch hworks _ (List.mem_singleton_self _)

theorem Takes.of_start {p : Stream.Start} (h : Takes limit r n (.start p) acts r' n')
    (hworks : Unrefused acts) : Takes limit .start n (.start p) acts r' n' := by
  cases h with
  | start hopens =>
      cases hopens with
      | opened hn => exact .start (.opened hn)
      | refused => exact nomatch hworks _ (List.mem_singleton_self _)

theorem Takes.telling {p : Stream.Start} (h : Takes limit r n (.start p) acts r' n')
    (hworks : Unrefused acts) :
    Telling limit [] [] ⟨messageId (n + 1), []⟩ r' (.given (.start p) :: acts) := by
  cases h with
  | start hopens =>
      obtain ⟨rfl, -, rfl⟩ := hopens.of_unrefused hworks
      exact ⟨divides_first limit _, rfl, rfl, rfl, rfl, rfl⟩

theorem Telling.next (h : Telling limit tokens front m r told) (hpos : 0 < limit) (id : String) :
    Telling limit tokens (front ++ [m]) ⟨id, []⟩ ⟨some id, 0, m.id :: r.sent⟩
      (told ++ [.wrote (.sent ⟨m.id, false⟩) (.ok ()), .wrote (.created ⟨id⟩) (.ok ())]) where
  divides := h.divides.next hpos id
  written_eq := by
    rw [written_append, h.written_eq, List.flatMap_append]
    simp only [List.flatMap_singleton, Message.statuses, List.append_assoc]
    rfl
  created_eq := by
    rw [createdIds_append, h.created_eq, List.map_append, List.map_append, List.map_append]
    rfl
  current_eq := rfl
  size_eq := rfl
  sent_eq := by
    rw [List.reverse_cons, h.sent_eq, List.map_append]
    rfl

theorem Telling.push (h : Telling limit tokens front m r told) {text : String}
    (hroom : r.overflows limit text = false) :
    Telling limit (tokens ++ [text]) front (m.push text)
      { r with size := r.size + text.utf8ByteSize }
      (told ++ [.wrote (.updated ⟨m.id, r.size + text.utf8ByteSize⟩) (.ok ())]) where
  divides := h.divides.push h.size_eq hroom
  written_eq := by
    rw [written_append, h.written_eq, Message.growth_push, List.append_assoc, h.size_eq]
    rfl
  created_eq := by
    rw [createdIds_concat_of_none rfl, h.created_eq, List.map_append, List.map_append]
    rfl
  current_eq := h.current_eq
  size_eq := by rw [Message.push, totalSize_concat, h.size_eq]
  sent_eq := h.sent_eq

theorem pos_of_overflows {text : String} (hfull : r.overflows limit text = true) : 0 < limit := by
  simp only [overflows, Bool.and_eq_true, decide_eq_true_eq] at hfull
  exact hfull.1.1

theorem Telling.provides (h : Telling limit tokens front m r told) {text id : String}
    (hprovides : Provides limit text r n acts (.ok id) r' n') (hworks : Unrefused acts) :
    ∃ front' m', m'.id = id ∧ r'.overflows limit text = false ∧
      Telling limit tokens front' m' r' (told ++ acts) := by
  cases hprovides with
  | current hroom hcurrent =>
      rw [List.append_nil]
      cases h.current_eq.symm.trans hcurrent
      exact ⟨front, m, rfl, hroom, h⟩
  | first _ hnone => cases h.current_eq.symm.trans hnone
  | next hfull hcloses hopens =>
      rw [unrefused_append] at hworks
      obtain ⟨rfl, -, rfl⟩ := hcloses.of_unrefused hworks.1 h.current_eq
      obtain ⟨rfl, hid, rfl⟩ := hopens.of_unrefused hworks.2
      cases hid
      exact ⟨front ++ [m], _, rfl, by simp [overflows], h.next (pos_of_overflows hfull) _⟩

theorem Telling.token (h : Telling limit tokens front m r told) {p : Stream.Delta}
    (htakes : Takes limit r n (.token p) acts r' n') (hworks : Unrefused acts) :
    ∃ front' m', Telling limit (tokens ++ [p.text]) front' m' r'
      (told ++ .given (.token p) :: acts) := by
  have hgiven : Telling limit tokens front m r (told ++ [.given (.token p)]) :=
    { h with
      written_eq := by rw [written_append, h.written_eq]; exact List.append_nil _
      created_eq := by rw [createdIds_concat_of_none rfl, h.created_eq] }
  rw [List.append_cons told]
  cases htakes with
  | @token _ acts id r' _ _ answer hprovides _ =>
      rw [unrefused_append] at hworks
      obtain ⟨front', m', rfl, hroom, htelling⟩ := hgiven.provides hprovides hworks.1
      cases answer with
      | error => exact nomatch hworks.2 _ (List.mem_singleton_self _)
      | ok _ =>
          rw [← List.append_assoc]
          exact ⟨front', _, htelling.push hroom⟩
  | unprovided hprovides =>
      -- there would be a refused status
      cases hprovides with
      | first _ hnone => cases h.current_eq.symm.trans hnone
      | next _ _ hopens =>
          obtain ⟨-, hresult, -⟩ := hopens.of_unrefused (unrefused_append.mp hworks).2
          cases hresult
      | unfinished _ hcloses =>
          obtain ⟨-, hresult, -⟩ := hcloses.of_unrefused hworks h.current_eq
          cases hresult

theorem Telling.finish (h : Telling limit tokens front m r told) {run : Option String}
    (htakes : Takes limit r n (.finish ⟨run, true⟩) acts r' n') (hworks : Unrefused acts) :
    createdIds (told ++ .given (.finish ⟨run, true⟩) :: acts) = (front ++ [m]).map (·.id) ∧
      written (told ++ .given (.finish ⟨run, true⟩) :: acts) = delivery front m := by
  rw [createdIds_append, written_append, h.created_eq, h.written_eq]
  cases htakes with
  | paused hfinal => cases hfinal
  | @complete _ _ _ _ _ answer _ hcloses =>
      rw [unrefused_append] at hworks
      obtain ⟨rfl, -, rfl⟩ := hcloses.of_unrefused hworks.1 h.current_eq
      cases answer with
      | error => exact nomatch hworks.2 _ (List.mem_singleton_self _)
      | ok _ =>
          rw [List.reverse_cons, h.sent_eq]
          refine ⟨List.append_nil _, ?_⟩
          simp only [delivery, Message.statuses, List.map_append, List.append_assoc]
          rfl
  | incomplete _ hcloses =>
      obtain ⟨-, hresult, -⟩ := hcloses.of_unrefused hworks h.current_eq
      cases hresult

theorem Telling.delivers {more : List String} {run : Option String}
    (h : Telling limit tokens front m r told)
    (hreplies : Replies limit r n (more.map (.token ⟨·⟩) ++ [.finish ⟨run, true⟩]) acts r' n')
    (hworks : Unrefused acts) :
    ∃ front' m', Divides limit (tokens ++ more) (front' ++ [m']) ∧
      createdIds (told ++ acts) = (front' ++ [m']).map (·.id) ∧
      written (told ++ acts) = delivery front' m' := by
  induction more generalizing tokens front m r n told acts with
  | nil =>
      cases hreplies with
      | taken htakes hdone =>
          cases hdone
          rw [List.append_nil, unrefused_cons] at hworks
          rw [List.append_nil, List.append_nil]
          exact ⟨front, m, h.divides, h.finish htakes hworks.2⟩
  | cons token more ih =>
      cases hreplies with
      | taken htakes hreplies =>
          rw [unrefused_cons, unrefused_append] at hworks
          obtain ⟨front', m', htelling⟩ := h.token htakes hworks.2.1
          rw [← List.cons_append, ← List.append_assoc, List.append_cons tokens]
          exact ih htelling hreplies hworks.2.2

def replyOf (p : Stream.Start) (tokens : List String) (run : Option String) : List Stream.Event :=
  .start p :: (tokens.map (.token ⟨·⟩) ++ [.finish ⟨run, true⟩])

theorem Replies.delivers {p : Stream.Start} {run : Option String}
    (h : Replies limit r n (replyOf p tokens run) told r' n') (hworks : Unrefused told) :
    ∃ front m, Divides limit tokens (front ++ [m]) ∧ ((front ++ [m]).map (·.id)).Nodup ∧
      written told = delivery front m := by
  cases h with
  | taken hstart hreplies =>
      rw [unrefused_cons, unrefused_append] at hworks
      have hkept := (Replies.taken (hstart.of_start hworks.2.1) hreplies).keeps (matches_start n)
      obtain ⟨front, m, hdivides, hcreated, hwritten⟩ :=
        (hstart.telling hworks.2.1).delivers hreplies hworks.2.2
      refine ⟨front, m, hdivides, ?_, hwritten⟩
      rw [← hcreated]
      exact hkept.orderly.distinct

end

theorem written_map (told : List (Act Stream.Status)) :
    written (told.map (Act.map statusLine)) = (written told).map statusLine := by
  rw [written, written, List.filterMap_map, List.map_filterMap]
  congr 1
  funext a
  rcases a with _ | ⟨_, _ | _⟩ <;> rfl

theorem unrefused_map {told : List (Act Stream.Status)} :
    Unrefused (told.map (Act.map statusLine)) ↔ Unrefused told := by
  rw [Unrefused, List.forall_mem_map]
  apply forall₂_congr
  intro a _
  rcases a with _ | ⟨_, _ | _⟩ <;> rfl

/-- Whatever a reply has been through, if none of its statuses is refused, then the tokens go into
messages of their own, in their order. Each message is created, updated with each of its tokens, and
finished before the next one; the last is the final one, and then the messages are listed. A message
exceeds the limit only by a single token, and without a limit there is one message. -/
theorem messages_of_tokens {ω : Type} [MonadOutput (StateM ω)] [MonadStateOf Ids (StateM ω)]
    {last : ω → Nat} (h : Numbers last) (limit : Nat) (r : Reply) (p : Stream.Start)
    (tokens : List String) (run : Option String) (w : ω)
    (hworks : Unrefused (acts limit r (replyOf p tokens run) w)) :
    ∃ front m, Divides limit tokens (front ++ [m]) ∧ ((front ++ [m]).map Message.id).Nodup ∧
      written (acts limit r (replyOf p tokens run) w) = (delivery front m).map statusLine := by
  obtain ⟨told, r', n', hacts, hreplies⟩ := replies_acts h limit r (replyOf p tokens run) w
  rw [hacts, unrefused_map] at hworks
  obtain ⟨front, m, hdivides, hdistinct, hwritten⟩ := hreplies.delivers hworks
  refine ⟨front, m, hdivides, hdistinct, ?_⟩
  rw [hacts, written_map, hwritten]

theorem numbers_world : Numbers (ω := World) (·.ids.last) where
  get _ := rfl
  set _ _ := rfl
  put record w := by
    have hids := w.ids_write record
    exact Nat.le_of_eq (congrArg Ids.last hids).symm

/-- A reply in which a message has been lost, and another has been sent but not listed. -/
def interrupted : Reply := ⟨none, 7, ["loopback:3"]⟩

def unevenTokens : List String := ["", "abc", "de", "f", "", "sixteen", "", "g"]

theorem messages_of_tokens_interrupted :
    ∃ trace, acts 5 interrupted (replyOf ⟨none, none, none⟩ unevenTokens none)
        (World.start ⟨[]⟩ none) = trace ∧ Unrefused trace ∧
      ∃ front m, Divides 5 unevenTokens (front ++ [m]) ∧ ((front ++ [m]).map Message.id).Nodup ∧
        written trace = (delivery front m).map statusLine := by
  have hworks : Unrefused (acts 5 interrupted (replyOf ⟨none, none, none⟩ unevenTokens none)
      (World.start ⟨[]⟩ none)) := by
    unfold Unrefused
    decide +kernel
  exact ⟨_, rfl, hworks, messages_of_tokens numbers_world 5 interrupted _ _ _ _ hworks⟩

end ChannelAdapter.Loopback.Reply
