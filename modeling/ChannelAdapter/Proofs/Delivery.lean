import ChannelAdapter.Delivery
import ChannelAdapter.Proofs.Chunk.Blank
import ChannelAdapter.Proofs.Watch
/-!
What a delivery does. The sender is called for the chunks in order, up to the first failure, and the
result tells how far it has got. A sender that has to wait makes no difference.
-/

namespace ChannelAdapter.Delivery

/-- A call of a sender: the chunk, and the answer. -/
abbrev Call := String × Except ErrorChain String

def granted (sent : List (String × String)) : List Call :=
  sent.map fun (chunk, id) => (chunk, .ok id)

/-- How chunks may be sent when some have been sent before, with the ids `earlier`. -/
inductive Sends (earlier : List String) : List String → List Call → DeliveryResult → Prop
  | all (sent : List (String × String)) :
      Sends earlier (sent.map Prod.fst) (granted sent)
        (.delivered (earlier ++ sent.map Prod.snd))
  | failed (sent : List (String × String)) (chunk : String) (rest : List String)
      (chain : ErrorChain) :
      Sends earlier (sent.map Prod.fst ++ chunk :: rest) (granted sent ++ [(chunk, .error chain)])
        (.failed (earlier ++ sent.map Prod.snd) (.network chain.message))

/-- How a text of `total` bytes is delivered that has these chunks. -/
inductive Delivers (total : Nat) : List String → List Call → DeliveryResult → Prop
  | empty : Delivers total [] [] {
      success := false
      messageIds := []
      chunksSent := 0
      totalSize := some total
      error := some ⟨.contentRejected, "empty message", none, false, none⟩ }
  | all (sent : List (String × String)) (hsent : sent ≠ []) :
      Delivers total (sent.map Prod.fst) (granted sent) {
        success := true
        messageIds := sent.map Prod.snd
        chunksSent := sent.length
        totalSize := some total
        error := none }
  | failed (sent : List (String × String)) (chunk : String) (rest : List String)
      (chain : ErrorChain) :
      Delivers total (sent.map Prod.fst ++ chunk :: rest) (granted sent ++ [(chunk, .error chain)]) {
        success := false
        messageIds := sent.map Prod.snd
        chunksSent := sent.length
        totalSize := some total
        error := some ⟨.network, chain.message, none, true, none⟩ }

theorem Sends.cons {earlier chunks : List String} {calls : List Call} {result : DeliveryResult}
    (chunk id : String) (h : Sends (earlier ++ [id]) chunks calls result) :
    Sends earlier (chunk :: chunks) ((chunk, .ok id) :: calls) result := by
  cases h with
  | all sent =>
      rw [List.append_assoc]
      exact .all ((chunk, id) :: sent)
  | failed sent failing rest chain =>
      rw [List.append_assoc]
      exact .failed ((chunk, id) :: sent) failing rest chain

theorem Sends.delivers {chunks : List String} {calls : List Call} {result : DeliveryResult}
    (h : Sends [] chunks calls result) (hchunks : chunks ≠ []) (total : Nat) :
    Delivers total chunks calls (result.withTotal total) := by
  cases h with
  | all sent =>
      have hsent : sent ≠ [] := mt List.map_eq_nil_iff.mpr hchunks
      have hall : Delivers total (sent.map Prod.fst) (granted sent) _ := .all sent hsent
      rw [← List.length_map Prod.snd] at hall
      exact hall
  | failed sent chunk rest chain =>
      have hfailed : Delivers total _ _ _ := .failed sent chunk rest chain
      rw [← List.length_map Prod.snd] at hfailed
      exact hfailed

theorem Delivers.progress {total : Nat} {chunks : List String} {calls : List Call}
    {result : DeliveryResult} (h : Delivers total chunks calls result) :
    result.chunksSent = result.messageIds.length ∧ result.totalSize = some total := by
  cases h with
  | empty => exact ⟨rfl, rfl⟩
  | all sent => exact ⟨(List.length_map Prod.snd).symm, rfl⟩
  | failed sent => exact ⟨(List.length_map Prod.snd).symm, rfl⟩

/-! The calls of a sender. -/

section
variable {ω : Type} (send : String → StateM ω (Except ErrorChain String))

def watchedSend (chunk : String) : Watched Call ω (Except ErrorChain String) :=
  .noting (chunk, ·) (send chunk)

theorem shows_sendAll (ids chunks : List String) (w : ω) :
    Watched.Shows (sendAll (watchedSend send) ids chunks) (sendAll send ids chunks) w
      fun result calls _ => Sends ids.reverse chunks calls result := by
  induction chunks generalizing ids w with
  | nil =>
      have hnone : Sends ids.reverse [] [] (.delivered (ids.reverse ++ [])) := .all []
      rw [List.append_nil] at hnone
      exact .pure hnone
  | cons chunk chunks ih =>
      rw [sendAll, sendAll]
      apply Watched.Shows.noting_bind
      intro answer w' _
      cases answer with
      | error chain =>
          have hfailed : Sends ids.reverse (chunk :: chunks) [(chunk, .error chain)]
              (.failed (ids.reverse ++ []) (.network chain.message)) :=
            .failed [] chunk chunks chain
          rw [List.append_nil] at hfailed
          exact .pure hfailed
      | ok id =>
          apply (ih (id :: ids) w').mono
          intro result calls _ hsends
          rw [List.reverse_cons] at hsends
          exact hsends.cons chunk id

variable (cut : String → Nat → List String) (text : String) (limit : Nat) (w : ω)

theorem shows_deliverBy :
    Watched.Shows (deliverBy cut text limit (watchedSend send)) (deliverBy cut text limit send) w
      fun result calls _ => Delivers text.utf8ByteSize (cut text limit) calls result := by
  rw [deliverBy, deliverBy]
  cases hchunks : cut text limit with
  | nil => exact .pure .empty
  | cons chunk chunks =>
      apply (shows_sendAll send [] (chunk :: chunks) w).bind
      intro result calls w' hsends
      apply Watched.Shows.pure
      rw [List.append_nil]
      exact hsends.delivers (List.cons_ne_nil chunk chunks) text.utf8ByteSize

def calls : List Call :=
  (((deliverBy cut text limit (watchedSend send)).run []).run w).1.2

theorem deliverBy_watched :
    ((deliverBy cut text limit (watchedSend send)).run []).run w =
      ((((deliverBy cut text limit send).run w).1, calls send cut text limit w),
        ((deliverBy cut text limit send).run w).2) :=
  (shows_deliverBy send cut text limit w).run_watched

end

/-! Senders that have to wait. -/

section
variable {ω : Type} (send : String → Task ω (Except ErrorChain String))

theorem run_sendAll (ids chunks : List String) :
    (sendAll send ids chunks).run = sendAll (fun chunk => (send chunk).run) ids chunks := by
  induction chunks generalizing ids with
  | nil => rfl
  | cons chunk chunks ih =>
      rw [sendAll, sendAll, Task.run_bind]
      apply bind_congr
      intro answer
      cases answer with
      | ok id => exact ih (id :: ids)
      | error chain => rfl

theorem run_deliverBy (cut : String → Nat → List String) (text : String) (limit : Nat) :
    (deliverBy cut text limit send).run =
      deliverBy cut text limit fun chunk => (send chunk).run := by
  rw [deliverBy, deliverBy]
  cases cut text limit with
  | nil => rfl
  | cons chunk chunks =>
      dsimp only
      rw [Task.run_bind, run_sendAll]
      rfl

end

/-- However a text is cut and whatever the sender does, the chunks are sent in order up to the first
failure, and the result tells which of them have been sent. Only an empty text and one of spaces
that does not fit have no chunks. A sender that has to wait leaves the same world and result as one
that does not. -/
theorem delivers_chunks {ω : Type} (cut : String → Nat → List String) (text : String) (limit : Nat)
    (send : String → StateM ω (Except ErrorChain String)) (w : ω) :
    Delivers text.utf8ByteSize (cut text limit) (calls send cut text limit w)
        ((deliverBy cut text limit send).run w).1 ∧
      ((deliverBy cut text limit send).run w).1.chunksSent =
        ((deliverBy cut text limit send).run w).1.messageIds.length ∧
      ((deliverBy cut text limit send).run w).1.totalSize = some text.utf8ByteSize ∧
      (∀ s : Chunk.Strategy, deliver s text limit send = deliverBy s.chunk text limit send ∧
        (s.chunk text limit = [] ↔
          text = "" ∨ 0 < limit ∧ limit < text.utf8ByteSize ∧ Text.Spaces text.toList)) ∧
      deliverDefault text limit send = deliver .fenced text limit send ∧
      ∀ later : String → Task ω (Except ErrorChain String),
        (deliverLater text limit later).run =
          deliver .fenced text limit fun chunk => (later chunk).run := by
  have hdelivers := (shows_deliverBy send cut text limit w).run_nil
  obtain ⟨hsent, htotal⟩ := hdelivers.progress
  refine ⟨hdelivers, hsent, htotal, ?_, rfl, ?_⟩
  · intro s
    exact ⟨rfl, s.chunk_eq_nil_iff text limit⟩
  · intro later
    exact run_deliverBy later Chunk.Strategy.fenced.chunk text limit

end ChannelAdapter.Delivery
