import ChannelAdapter.Loopback.Reply
import ChannelAdapter.Proofs.Watch
/-!
What a reply does. Its handler is given stream events, and the statuses that it writes are noted
between them, whether they could be written or not; `Replies` says which acts that may lead to.
-/

namespace ChannelAdapter.Loopback.Reply

/-- An event that the handler is given, or something that it writes. -/
inductive Act (τ : Type)
  | given (e : Stream.Event)
  | wrote (what : τ) (answer : Except String Unit)

namespace Act

variable {τ υ : Type}

def map (f : τ → υ) : Act τ → Act υ
  | .given e => .given e
  | .wrote what answer => .wrote (f what) answer

def written? : Act τ → Option τ
  | .wrote what (.ok _) => some what
  | _ => none

def isRefused : Act τ → Bool
  | .wrote _ (.error _) => true
  | _ => false

end Act

def statusLine (s : Stream.Status) : String :=
  Output.line (Stream.Status.union.codec.encode s)

def messageId (n : Nat) : String :=
  s!"{channel}:{n}"

theorem messageId_injective {a b : Nat} (h : messageId a = messageId b) : a = b := by
  have hdigits : Nat.toDigits 10 a = Nat.toDigits 10 b := by
    simpa [messageId, String.ext_iff, toString, Nat.toList_repr] using h
  rw [← @Nat.ofDigitChars_ten_toDigits a, hdigits, Nat.ofDigitChars_ten_toDigits]

/-! What a reply may do. Beside its state stands the number of the last message of all replies,
which others may have raised by the time that a status is written. -/

inductive Opens (r : Reply) (n : Nat) :
    List (Act Stream.Status) → Except ErrorChain String → Reply → Nat → Prop
  | opened {n' : Nat} (hn : n + 1 ≤ n') :
      Opens r n [.wrote (.created ⟨messageId (n + 1)⟩) (.ok ())] (.ok (messageId (n + 1)))
        { r with current := some (messageId (n + 1)), size := 0 } n'
  | refused {n' : Nat} {reason : String} (hn : n + 1 ≤ n') :
      Opens r n [.wrote (.created ⟨messageId (n + 1)⟩) (.error reason)]
        (.error (.ofError (.io reason))) r n'

/-- The message that grows is finished, if there is one. It is lost if that cannot be told. -/
inductive Closes (final : Bool) (r : Reply) (n : Nat) :
    List (Act Stream.Status) → Except ErrorChain Unit → Reply → Nat → Prop
  | nothing (hcurrent : r.current = none) : Closes final r n [] (.ok ()) r n
  | closed {id : String} {n' : Nat} (hcurrent : r.current = some id) (hn : n ≤ n') :
      Closes final r n [.wrote (.sent ⟨id, final⟩) (.ok ())] (.ok ())
        { r with current := none, sent := id :: r.sent } n'
  | refused {id : String} {n' : Nat} {reason : String} (hcurrent : r.current = some id)
      (hn : n ≤ n') :
      Closes final r n [.wrote (.sent ⟨id, final⟩) (.error reason)]
        (.error (.ofError (.io reason))) { r with current := none } n'

theorem Closes.current_eq_none {final : Bool} {r r' : Reply} {n n' : Nat}
    {acts : List (Act Stream.Status)} {result : Except ErrorChain Unit}
    (h : Closes final r n acts result r' n') : r'.current = none := by
  cases h with
  | nothing hcurrent => exact hcurrent
  | closed => rfl
  | refused => rfl

/-- The message that a text is added to: the one that grows, or a new one. -/
inductive Provides (limit : Nat) (text : String) (r : Reply) (n : Nat) :
    List (Act Stream.Status) → Except ErrorChain String → Reply → Nat → Prop
  | current {id : String} (hroom : r.overflows limit text = false)
      (hcurrent : r.current = some id) : Provides limit text r n [] (.ok id) r n
  | first {acts : List (Act Stream.Status)} {result : Except ErrorChain String} {r' : Reply}
      {n' : Nat} (hroom : r.overflows limit text = false) (hcurrent : r.current = none)
      (hopens : Opens r n acts result r' n') : Provides limit text r n acts result r' n'
  | next {acts more : List (Act Stream.Status)} {result : Except ErrorChain String}
      {r' r'' : Reply} {n' n'' : Nat} (hfull : r.overflows limit text = true)
      (hcloses : Closes false r n acts (.ok ()) r' n')
      (hopens : Opens r' n' more result r'' n'') :
      Provides limit text r n (acts ++ more) result r'' n''
  | unfinished {acts : List (Act Stream.Status)} {chain : ErrorChain} {r' : Reply} {n' : Nat}
      (hfull : r.overflows limit text = true)
      (hcloses : Closes false r n acts (.error chain) r' n') :
      Provides limit text r n acts (.error chain) r' n'

inductive Takes (limit : Nat) (r : Reply) (n : Nat) :
    Stream.Event → List (Act Stream.Status) → Reply → Nat → Prop
  | start {p : Stream.Start} {acts : List (Act Stream.Status)}
      {result : Except ErrorChain String} {r' : Reply} {n' : Nat}
      (hopens : Opens { r with sent := [] } n acts result r' n') :
      Takes limit r n (.start p) acts r' n'
  | token {p : Stream.Delta} {acts : List (Act Stream.Status)} {id : String} {r' : Reply}
      {n' n'' : Nat} {answer : Except String Unit}
      (hprovides : Provides limit p.text r n acts (.ok id) r' n') (hn : n' ≤ n'') :
      Takes limit r n (.token p)
        (acts ++ [.wrote (.updated ⟨id, r'.size + p.text.utf8ByteSize⟩) answer])
        { r' with size := r'.size + p.text.utf8ByteSize } n''
  | unprovided {p : Stream.Delta} {acts : List (Act Stream.Status)} {chain : ErrorChain}
      {r' : Reply} {n' : Nat} (hprovides : Provides limit p.text r n acts (.error chain) r' n') :
      Takes limit r n (.token p) acts r' n'
  | tool {p : Stream.Tool} : Takes limit r n (.tool p) [] r n
  | reasoning {p : Stream.Delta} : Takes limit r n (.reasoning p) [] r n
  | paused {p : Stream.Finish} {acts : List (Act Stream.Status)}
      {result : Except ErrorChain Unit} {r' : Reply} {n' : Nat} (hfinal : p.final = false)
      (hcloses : Closes false r n acts result r' n') : Takes limit r n (.finish p) acts r' n'
  | complete {p : Stream.Finish} {acts : List (Act Stream.Status)} {r' : Reply} {n' n'' : Nat}
      {answer : Except String Unit} (hfinal : p.final = true)
      (hcloses : Closes true r n acts (.ok ()) r' n') (hn : n' ≤ n'') :
      Takes limit r n (.finish p) (acts ++ [.wrote (.complete ⟨r'.sent.reverse⟩) answer])
        { r' with sent := [] } n''
  | incomplete {p : Stream.Finish} {acts : List (Act Stream.Status)} {chain : ErrorChain}
      {r' : Reply} {n' : Nat} (hfinal : p.final = true)
      (hcloses : Closes true r n acts (.error chain) r' n') : Takes limit r n (.finish p) acts r' n'
  | failure {p : Stream.Failure} {acts : List (Act Stream.Status)} {r' : Reply} {n' n'' : Nat}
      {answer : Except String Unit} (hcloses : Closes true r n acts (.ok ()) r' n')
      (hn : n' ≤ n'') :
      Takes limit r n (.failure p) (acts ++ [.wrote (.fault ⟨p.error⟩) answer]) r' n''
  | untold {p : Stream.Failure} {acts : List (Act Stream.Status)} {chain : ErrorChain}
      {r' : Reply} {n' : Nat} (hcloses : Closes true r n acts (.error chain) r' n') :
      Takes limit r n (.failure p) acts r' n'

/-- Events are taken one after the other, whatever has become of those before. -/
inductive Replies (limit : Nat) : Reply → Nat → List Stream.Event → List (Act Stream.Status) →
    Reply → Nat → Prop
  | done {r : Reply} {n : Nat} : Replies limit r n [] [] r n
  | taken {r r' r'' : Reply} {n n' n'' : Nat} {e : Stream.Event} {events : List Stream.Event}
      {acts more : List (Act Stream.Status)} (htakes : Takes limit r n e acts r' n')
      (hreplies : Replies limit r' n' events more r'' n'') :
      Replies limit r n (e :: events) (.given e :: (acts ++ more)) r'' n''

/-! What a reply does. -/

variable {ω α β : Type}

def giveAll {σ : Type} {m : Type → Type} [Monad m]
    (on : Stream.Event → StateT σ m (Except ErrorChain Unit)) : List Stream.Event → StateT σ m Unit
  | [] => return ()
  | e :: events => do
      let _ ← on e
      giveAll on events

def grow {m : Type → Type} [Monad m] [MonadOutput m] (text id : String) : Step m Unit := do
  modify fun r => { r with size := r.size + text.utf8ByteSize }
  tell (.updated ⟨id, (← get).size⟩)

/-- Worlds that number messages. The number goes up by one with each message, and perhaps while
others use the world. -/
structure Numbers [MonadOutput (StateM ω)] [MonadStateOf Ids (StateM ω)] (last : ω → Nat) :
    Prop where
  get (w : ω) : (getThe Ids : StateM ω Ids).run w = (⟨last w⟩, w)
  set (n : Nat) (w : ω) : last ((set (⟨n⟩ : Ids) : StateM ω PUnit).run w).2 = n
  put (record : String) (w : ω) : last w ≤ last ((MonadOutput.put record : StateM ω _).run w).2

instance [MonadOutput (StateM ω)] : MonadOutput (Watched (Act String) ω) where
  put record := .noting (.wrote record) (MonadOutput.put record)

/-- The watched step `x` does to a reply what `y` does, and what it notes are statuses. -/
def Step.Shows (x : Step (Watched (Act String) ω) α) (y : Step (StateM ω) α) (r : Reply) (w : ω)
    (post : Except ErrorChain α → Reply → List (Act Stream.Status) → ω → Prop) : Prop :=
  Watched.Shows (x.run.run r) (y.run.run r) w fun result acts w' =>
    ∃ told, acts = told.map (Act.map statusLine) ∧ post result.1 result.2 told w'

section
variable {r : Reply} {w : ω}
  {post : Except ErrorChain α → Reply → List (Act Stream.Status) → ω → Prop}

theorem Step.Shows.pure {a : α} (h : post (.ok a) r [] w) :
    Step.Shows (pure a) (pure a) r w post :=
  Watched.Shows.pure ⟨[], rfl, h⟩

theorem Step.Shows.mono {x : Step (Watched (Act String) ω) α} {y : Step (StateM ω) α}
    {weaker : Except ErrorChain α → Reply → List (Act Stream.Status) → ω → Prop}
    (h : Step.Shows x y r w post)
    (hpost : ∀ result r' told w', post result r' told w' → weaker result r' told w') :
    Step.Shows x y r w weaker := by
  apply Watched.Shows.mono h
  rintro ⟨result, r'⟩ acts w' ⟨told, hacts, htold⟩
  exact ⟨told, hacts, hpost result r' told w' htold⟩

theorem Step.Shows.bind {x : Step (Watched (Act String) ω) β} {y : Step (StateM ω) β}
    {f : β → Step (Watched (Act String) ω) α} {g : β → Step (StateM ω) α}
    {middle : Except ErrorChain β → Reply → List (Act Stream.Status) → ω → Prop}
    (h : Step.Shows x y r w middle)
    (hok : ∀ b r' told w', middle (.ok b) r' told w' →
      Step.Shows (f b) (g b) r' w' fun result r'' more w'' => post result r'' (told ++ more) w'')
    (herror : ∀ chain r' told w', middle (.error chain) r' told w' →
      post (.error chain) r' told w') :
    Step.Shows (x >>= f) (y >>= g) r w post := by
  rw [Step.Shows, ExceptT.run_bind, ExceptT.run_bind, StateT.run_bind, StateT.run_bind]
  apply Watched.Shows.bind h
  rintro ⟨result, r'⟩ _ w' ⟨told, rfl, hmiddle⟩
  cases result with
  | error chain =>
      apply Watched.Shows.pure
      exact ⟨told, List.append_nil _, herror chain r' told w' hmiddle⟩
  | ok b =>
      apply Watched.Shows.mono (hok b r' told w' hmiddle)
      rintro result _ w'' ⟨more, rfl, hpost⟩
      exact ⟨told ++ more, List.map_append.symm, hpost⟩

theorem Step.Shows.pure_bind {b : β} {f : β → Step (Watched (Act String) ω) α}
    {g : β → Step (StateM ω) α} (h : Step.Shows (f b) (g b) r w post) :
    Step.Shows (Pure.pure b >>= f) (Pure.pure b >>= g) r w post :=
  h

-- Reading and changing the reply goes unnoticed.
theorem Step.Shows.get_bind {f : Reply → Step (Watched (Act String) ω) α}
    {g : Reply → Step (StateM ω) α} (h : Step.Shows (f r) (g r) r w post) :
    Step.Shows (get >>= f) (get >>= g) r w post :=
  h

theorem Step.Shows.modify_bind {change : Reply → Reply}
    {f : PUnit → Step (Watched (Act String) ω) α} {g : PUnit → Step (StateM ω) α}
    (h : Step.Shows (f ⟨⟩) (g ⟨⟩) (change r) w post) :
    Step.Shows (modify change >>= f) (modify change >>= g) r w post :=
  h

theorem Step.Shows.modify {change : Reply → Reply}
    {post : Except ErrorChain PUnit → Reply → List (Act Stream.Status) → ω → Prop}
    (h : post (.ok ⟨⟩) (change r) [] w) :
    Step.Shows (modify change) (modify change) r w post :=
  Watched.Shows.pure ⟨[], rfl, h⟩

end

theorem Step.Shows.lift_bind {x : Watched (Act String) ω β} {y : StateM ω β}
    {f : β → Step (Watched (Act String) ω) α} {g : β → Step (StateM ω) α} {r : Reply} {w : ω}
    {middle : β → List (Act Stream.Status) → ω → Prop}
    {post : Except ErrorChain α → Reply → List (Act Stream.Status) → ω → Prop}
    (h : Watched.Shows x y w fun b acts w' =>
      ∃ told, acts = told.map (Act.map statusLine) ∧ middle b told w')
    (hnext : ∀ b told w', middle b told w' →
      Step.Shows (f b) (g b) r w' fun result r' more w'' => post result r' (told ++ more) w'') :
    Step.Shows (liftM x >>= f) (liftM y >>= g) r w post := by
  have hx : (liftM x >>= f : Step _ α).run.run r = x >>= fun b => (f b).run.run r := rfl
  have hy : (liftM y >>= g : Step _ α).run.run r = y >>= fun b => (g b).run.run r := rfl
  rw [Step.Shows, hx, hy]
  apply Watched.Shows.bind h
  rintro b _ w' ⟨told, rfl, hmiddle⟩
  apply Watched.Shows.mono (hnext b told w' hmiddle)
  rintro result _ w'' ⟨more, rfl, hpost⟩
  exact ⟨told ++ more, List.map_append.symm, hpost⟩

section
variable [MonadOutput (StateM ω)] [MonadStateOf Ids (StateM ω)] {last : ω → Nat}
  (h : Numbers last) (limit : Nat) (r : Reply) (w : ω)
include h

theorem shows_tell (s : Stream.Status) :
    Step.Shows (tell s) (tell s) r w fun result r' told w' => r' = r ∧ last w ≤ last w' ∧
      ∃ answer, told = [.wrote s answer] ∧
        result = answer.mapError fun reason => .ofError (.io reason) := by
  have hemit : Watched.Shows (s.emit (m := Watched (Act String) ω)) s.emit w fun result acts w' =>
      ∃ told, acts = told.map (Act.map statusLine) ∧ last w ≤ last w' ∧
        ∃ answer, told = [.wrote s answer] ∧ result = answer.mapError .io := by
    apply Watched.Shows.noting_bind
    intro answer w' hrun
    have hlast := h.put (statusLine s) w
    rw [statusLine, hrun] at hlast
    exact .pure ⟨[.wrote s answer], rfl, hlast, answer, rfl, rfl⟩
  apply Step.Shows.lift_bind hemit
  rintro _ _ w' ⟨hlast, answer, rfl, rfl⟩
  cases answer with
  | ok _ => exact .pure ⟨rfl, hlast, .ok (), rfl, rfl⟩
  | error reason => exact Watched.Shows.pure ⟨[], rfl, rfl, hlast, .error reason, rfl, rfl⟩

theorem shows_openMessage : Step.Shows openMessage openMessage r w fun result r' told w' =>
    Opens r (last w) told result r' (last w') := by
  have hfresh : Watched.Shows (freshId (m := Watched (Act String) ω)) freshId w fun id acts w' =>
      ∃ told, acts = told.map (Act.map statusLine) ∧ told = [] ∧ id = messageId (last w + 1) ∧
        last w' = last w + 1 := by
    have hget := h.get w
    have hset := h.set (last w + 1) w
    apply Watched.Shows.bind (Watched.Shows.lift (getThe Ids))
    rintro _ _ _ ⟨rfl, hrun⟩
    rw [hget] at hrun
    cases hrun
    apply Watched.Shows.bind (Watched.Shows.lift (set _))
    rintro _ _ w' ⟨rfl, hrun⟩
    rw [hrun] at hset
    exact .pure ⟨[], rfl, rfl, rfl, hset⟩
  apply Step.Shows.lift_bind hfresh
  rintro _ _ w' ⟨rfl, rfl, hlast⟩
  apply (shows_tell h r w' (.created ⟨messageId (last w + 1)⟩)).bind
  · rintro _ _ _ w'' ⟨rfl, hle, answer, rfl, hanswer⟩
    cases answer with
    | error => cases hanswer
    | ok _ =>
        apply Step.Shows.modify_bind
        exact .pure (.opened (by omega))
  · rintro chain _ _ w'' ⟨rfl, hle, answer, rfl, hanswer⟩
    cases answer with
    | ok => cases hanswer
    | error reason =>
        cases hanswer
        exact .refused (by omega)

theorem shows_closeMessage (final : Bool) :
    Step.Shows (closeMessage final) (closeMessage final) r w fun result r' told w' =>
      Closes final r (last w) told result r' (last w') := by
  apply Step.Shows.get_bind
  cases hcurrent : r.current with
  | none => exact .pure (.nothing hcurrent)
  | some id =>
      apply Step.Shows.modify_bind
      apply (shows_tell h _ w (.sent ⟨id, final⟩)).bind
      · rintro _ _ _ w' ⟨rfl, hle, answer, rfl, hanswer⟩
        cases answer with
        | error => cases hanswer
        | ok _ =>
            exact .modify (.closed hcurrent hle)
      · rintro chain _ _ w' ⟨rfl, hle, answer, rfl, hanswer⟩
        cases answer with
        | ok => cases hanswer
        | error reason =>
            cases hanswer
            exact .refused hcurrent hle

theorem shows_onStart (p : Stream.Start) :
    Step.Shows onStart onStart r w fun _ r' told w' =>
      Takes limit r (last w) (.start p) told r' (last w') := by
  apply Step.Shows.modify_bind
  apply (shows_openMessage h _ w).bind
  · intro id r' told w' hopens
    exact .pure ((List.append_nil told).symm ▸ .start hopens)
  · intro chain r' told w' hopens
    exact .start hopens

theorem shows_grow (p : Stream.Delta) {id : String} {told : List (Act Stream.Status)} {r' : Reply}
    {w' : ω} (hprovides : Provides limit p.text r (last w) told (.ok id) r' (last w')) :
    Step.Shows (grow p.text id) (grow p.text id) r' w' fun _ r'' more w'' =>
      Takes limit r (last w) (.token p) (told ++ more) r'' (last w'') := by
  apply Step.Shows.modify_bind
  apply Step.Shows.get_bind
  apply (shows_tell h _ w' _).mono
  rintro _ _ _ w'' ⟨rfl, hle, answer, rfl, -⟩
  exact .token hprovides hle

theorem shows_onToken (p : Stream.Delta) :
    Step.Shows (onToken limit p.text) (onToken limit p.text) r w fun _ r' told w' =>
      Takes limit r (last w) (.token p) told r' (last w') := by
  apply Step.Shows.get_bind
  cases hroom : r.overflows limit p.text with
  | false =>
      apply Step.Shows.get_bind
      cases hcurrent : r.current with
      | some id =>
          apply Step.Shows.pure_bind
          apply (shows_grow h limit r w p (.current hroom hcurrent)).mono
          intro _ r' told w' htakes
          exact htakes
      | none =>
          apply (shows_openMessage h r w).bind
          · intro id r' told w' hopens
            exact shows_grow h limit r w p (.first hroom hcurrent hopens)
          · intro chain r' told w' hopens
            exact .unprovided (.first hroom hcurrent hopens)
  | true =>
      apply (shows_closeMessage h r w false).bind
      · intro _ r' told w' hcloses
        -- no message grows now, so that a new one is opened in any case
        apply Step.Shows.get_bind
        rw [hcloses.current_eq_none]
        apply (shows_openMessage h r' w').bind
        · intro id r'' more w'' hopens
          apply (shows_grow h limit r w p (.next hroom hcloses hopens)).mono
          intro _ r''' rest w''' htakes
          rwa [← List.append_assoc]
        · intro chain r'' more w'' hopens
          exact .unprovided (.next hroom hcloses hopens)
      · intro chain r' told w' hcloses
        exact .unprovided (.unfinished hroom hcloses)

theorem shows_onFinish (p : Stream.Finish) :
    Step.Shows (onFinish p.final) (onFinish p.final) r w fun _ r' told w' =>
      Takes limit r (last w) (.finish p) told r' (last w') := by
  apply (shows_closeMessage h r w p.final).bind
  · intro _ r' told w' hcloses
    cases hfinal : p.final with
    | false =>
        rw [hfinal] at hcloses
        exact .pure ((List.append_nil told).symm ▸ .paused hfinal hcloses)
    | true =>
        rw [hfinal] at hcloses
        apply Step.Shows.get_bind
        apply Step.Shows.modify_bind
        apply (shows_tell h _ w' _).mono
        rintro _ _ _ w'' ⟨rfl, hle, answer, rfl, -⟩
        exact .complete hfinal hcloses hle
  · intro chain r' told w' hcloses
    cases hfinal : p.final with
    | false => exact .paused hfinal (hfinal ▸ hcloses)
    | true => exact .incomplete hfinal (hfinal ▸ hcloses)

theorem shows_onFailure (p : Stream.Failure) :
    Step.Shows (onFailure p.error) (onFailure p.error) r w fun _ r' told w' =>
      Takes limit r (last w) (.failure p) told r' (last w') := by
  apply (shows_closeMessage h r w true).bind
  · intro _ r' told w' hcloses
    apply (shows_tell h r' w' _).mono
    rintro _ _ _ w'' ⟨rfl, hle, answer, rfl, -⟩
    exact .failure hcloses hle
  · intro chain r' told w' hcloses
    exact .untold hcloses

theorem shows_on (e : Stream.Event) :
    Watched.Shows (((handler limit).on e).run r) (((handler limit).on e).run r) w
      fun result acts w' => ∃ told, acts = told.map (Act.map statusLine) ∧
        Takes limit r (last w) e told result.2 (last w') := by
  cases e with
  | start p => exact shows_onStart h limit r w p
  | token p => exact shows_onToken h limit r w p
  | tool => exact .pure ⟨[], rfl, .tool⟩
  | reasoning => exact .pure ⟨[], rfl, .reasoning⟩
  | finish p => exact shows_onFinish h limit r w p
  | failure p => exact shows_onFailure h limit r w p

/-- What the handler does with an event, which is noted first. -/
def watchedOn (limit : Nat) (e : Stream.Event) :
    StateT Reply (Watched (Act String) ω) (Except ErrorChain Unit) := fun r => do
  Watched.noting (fun _ => .given e) (pure ())
  ((handler limit).on e).run r

theorem shows_giveAll (events : List Stream.Event) :
    Watched.Shows ((giveAll (watchedOn limit) events).run r)
      ((giveAll (handler limit).on events).run r) w
      fun result acts w' => ∃ told, acts = told.map (Act.map statusLine) ∧
        Replies limit r (last w) events told result.2 (last w') := by
  induction events generalizing r w with
  | nil => exact .pure ⟨[], rfl, .done⟩
  | cons e events ih =>
      have hon : Watched.Shows ((watchedOn limit e).run r) (((handler limit).on e).run r) w
          fun result acts w' => ∃ told, acts = .given e :: told.map (Act.map statusLine) ∧
            Takes limit r (last w) e told result.2 (last w') := by
        have hpure : ((handler limit).on e).run r =
            (pure () : StateM ω Unit) >>= fun _ => ((handler limit).on e).run r := rfl
        rw [hpure]
        apply Watched.Shows.noting_bind
        rintro _ _ ⟨⟩
        apply (shows_on h limit r w e).mono
        rintro _ _ w' ⟨told, rfl, htakes⟩
        exact ⟨told, rfl, htakes⟩
      rw [giveAll, giveAll, StateT.run_bind, StateT.run_bind]
      apply hon.bind
      rintro ⟨_, r'⟩ _ w' ⟨told, rfl, htakes⟩
      apply (ih r' w').mono
      rintro _ _ w'' ⟨more, rfl, hreplies⟩
      exact ⟨.given e :: (told ++ more), by simp [Act.map], .taken htakes hreplies⟩

end

def acts [MonadOutput (StateM ω)] [MonadStateOf Ids (StateM ω)] (limit : Nat) (r : Reply)
    (events : List Stream.Event) (w : ω) : List (Act String) :=
  ((((giveAll (watchedOn limit) events).run r).run []).run w).1.2

section
variable [MonadOutput (StateM ω)] [MonadStateOf Ids (StateM ω)] {last : ω → Nat}
  (h : Numbers last) (limit : Nat) (r : Reply) (events : List Stream.Event) (w : ω)
include h

/-- To be watched makes no difference to a reply and to the world. -/
theorem giveAll_watched :
    let reply : StateM ω (Unit × Reply) := (giveAll (handler limit).on events).run r
    (((giveAll (watchedOn limit) events).run r).run []).run w =
      (((reply.run w).1, acts limit r events w), (reply.run w).2) :=
  (shows_giveAll h limit r w events).run_watched

theorem replies_acts : ∃ told r' n', acts limit r events w = told.map (Act.map statusLine) ∧
    Replies limit r (last w) events told r' n' := by
  obtain ⟨told, hacts, hreplies⟩ := (shows_giveAll h limit r w events).run_nil
  exact ⟨told, _, _, hacts, hreplies⟩

end

end ChannelAdapter.Loopback.Reply
