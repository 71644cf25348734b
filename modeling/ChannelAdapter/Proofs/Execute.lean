import ChannelAdapter.Execute
import ChannelAdapter.Proofs.Emitter
/-!
How commands are answered. To send a message and to tell the state of an account always gives one
record, be it one of a failure, unless the adapter does not support the command at all; the errors
of other handlers are returned.
-/

namespace ChannelAdapter

/-- The error of this library in a chain, under whatever contexts. -/
inductive ErrorChain.Holds : ErrorChain → Error → Prop
  | error (e : Error) (contexts : List String) : Holds ⟨.error e, contexts⟩ e
  | command (e : CommandError) (contexts : List String) : Holds ⟨.command e, contexts⟩ (.command e)

/-- The account of a command: the one that it names, else that of the runtime context. -/
inductive AdapterContext.Resolves (ctx : AdapterContext) : Option String → String → Prop
  | named (account : String) : Resolves ctx (some account) account
  | runtime {c : RuntimeContext} (h : ctx.runtime = some c) : Resolves ctx none c.account
  | unknown (h : ctx.runtime = none) : Resolves ctx none ""

theorem AdapterContext.Resolves.eq {ctx : AdapterContext} {named : Option String} {account : String}
    (h : Resolves ctx named account) : ctx.account named = account := by
  cases h with
  | named => rfl
  | runtime h => simp [AdapterContext.account, h]
  | unknown h => simp [AdapterContext.account, h]

namespace Execute

/-! Errors of handlers. -/

/-- The error that a command gives for that of its handler. -/
inductive Folds (command : String) : ErrorChain → Error → Prop
  | held {chain : ErrorChain} {e : Error} (h : chain.Holds e) : Folds command chain e
  | foreign (message : String) (contexts : List String) :
      Folds command ⟨.text message, contexts⟩
        (.command (.executionFailed command (": ".intercalate (contexts ++ [message]))))

/-- What a record tells of the error of a handler. -/
inductive Tells : ErrorChain → String → Prop
  | foreign (message : String) (contexts : List String) :
      Tells ⟨.text message, contexts⟩ (": ".intercalate (contexts ++ [message]))
  | reason {chain : ErrorChain} {command reason : String}
      (h : chain.Holds (.command (.executionFailed command reason))) : Tells chain reason
  | held {chain : ErrorChain} {e : Error} (h : chain.Holds e)
      (hreason : ∀ command reason, e ≠ .command (.executionFailed command reason)) :
      Tells chain e.message

theorem folds_commandError (command : String) (chain : ErrorChain) :
    Folds command chain (chain.commandError command) := by
  obtain ⟨root, contexts⟩ := chain
  cases root with
  | text message => exact .foreign message contexts
  | error e => exact .held (.error e contexts)
  | command e => exact .held (.command e contexts)

theorem commandError_of_holds {command : String} {chain : ErrorChain} {e : Error}
    (h : chain.Holds e) : chain.commandError command = e := by
  cases h <;> rfl

theorem tells_reason (command : String) (chain : ErrorChain) :
    Tells chain (reason (chain.commandError command)) := by
  have hfolds := folds_commandError command chain
  generalize chain.commandError command = e at hfolds
  cases hfolds with
  | foreign message contexts => exact .foreign message contexts
  | held h =>
      unfold reason
      split
      · exact .reason h
      · next hreason => exact .held h hreason

theorem isUnsupported_iff {e : Error} :
    isUnsupported e = true ↔ ∃ command, e = .command (.unsupported command) := by
  unfold isUnsupported
  split <;> simp_all

/-! Outcomes of handlers. -/

section
variable {ω α : Type} [MonadOutput (StateM ω)] {written : ω → List String}

/-- One line has been written, and it holds this value. -/
structure Adds (written : ω → List String) (v : Json) (w w' : ω) : Prop where
  newline_not_mem : '\n' ∉ v.text.toList
  written : written w' = written w ++ [v.text ++ "\n"]

/-- How a handler is answered that has left the world `w`: by one line, which holds what the handler
gives or what `failed` makes of its failure, or else by the error that says what is not supported. -/
inductive Answers (written : ω → List String) (c : Json.Codec α) (failed : String → α) (w : ω) :
    Except ErrorChain α → Except Error Unit × ω → Prop
  | given {a : α} {w' : ω} (hline : Adds written (c.encode a) w w') :
      Answers written c failed w (.ok a) (.ok (), w')
  | failed {chain : ErrorChain} {message : String} {w' : ω}
      (hsupported : ∀ command, ¬chain.Holds (.command (.unsupported command)))
      (htells : Tells chain message) (hline : Adds written (c.encode (failed message)) w w') :
      Answers written c failed w (.error chain) (.ok (), w')
  | unsupported {chain : ErrorChain} {command : String}
      (h : chain.Holds (.command (.unsupported command))) :
      Answers written c failed w (.error chain) (.error (.command (.unsupported command)), w)

/-- What becomes of what a handler gives whose errors are returned. -/
inductive Returns (command : String) : Except ErrorChain α → Except Error α → Prop
  | ok (a : α) : Returns command (.ok a) (.ok a)
  | error {chain : ErrorChain} {e : Error} (h : Folds command chain e) :
      Returns command (.error chain) (.error e)

theorem returns_mapError (command : String) (result : Except ErrorChain α) :
    Returns command result (result.mapError (·.commandError command)) := by
  cases result with
  | ok a => exact .ok a
  | error chain => exact .error (folds_commandError command chain)

theorem adds_write (hsink : Stream.Sink written true) (c : Json.Codec α) (a : α) (w : ω) :
    ∃ w', (Output.write c a : StateM ω _).run w = (.ok (), w') ∧
      Adds written (c.encode a) w w' := by
  obtain ⟨result, w', hrun⟩ :
      ∃ result w', (Output.write c a : StateM ω _).run w = (result, w') := ⟨_, _, rfl⟩
  obtain ⟨hok, hwritten⟩ := Emitter.written_ok hsink (c.encode a) w hrun
  cases result with
  | error e => cases hok
  | ok done =>
      have hline : '\n' ∉ (c.encode a).text.toList :=
        fun hmem => absurd ((c.encode a).noControls_text _ hmem) (by decide)
      exact ⟨w', hrun, hline, hwritten⟩

theorem answers_answer (hsink : Stream.Sink written true) (c : Json.Codec α) (command : String)
    (failed : String → α) (result : Except ErrorChain α) (w : ω) :
    Answers written c failed w result ((answer c command failed result : StateM ω _).run w) := by
  cases result with
  | ok a =>
      obtain ⟨w', hrun, hadds⟩ := adds_write hsink c a w
      rw [answer, hrun]
      exact .given hadds
  | error chain =>
      rw [answer]
      by_cases hunsupported : isUnsupported (chain.commandError command) = true
      · obtain ⟨name, hname⟩ := isUnsupported_iff.mp hunsupported
        rw [if_pos hunsupported, hname]
        have hfolds := folds_commandError command chain
        rw [hname] at hfolds
        cases hfolds with
        | held h => exact .unsupported h
      · rw [if_neg hunsupported]
        obtain ⟨w', hrun, hadds⟩ :=
          adds_write hsink c (failed (reason (chain.commandError command))) w
        rw [hrun]
        refine .failed (fun name h => hunsupported ?_) (tells_reason command chain) hadds
        exact isUnsupported_iff.mpr ⟨name, commandError_of_holds h⟩

variable [MonadClock (StateM ω)]

/-- Whatever the handlers do, to send a message and to tell the state of an account gives one line,
unless it is not supported. The other commands return the errors of their handlers. -/
theorem outcomes_answered (hsink : Stream.Sink written true) (a : Adapter (StateM ω))
    (ctx : AdapterContext) (source : Input.Source (StateM ω)) (w w' : ω) :
    (∀ message account result, ctx.Resolves message.account account →
      (a.send ctx { message with account }).run w = (result, w') →
      Answers written DeliveryResult.record.codec
        (fun message => {
          success := false
          messageIds := []
          chunksSent := 0
          totalSize := none
          error := some ⟨.unknown, message, none, false, none⟩ })
        w' result ((execute a ctx source (.send message)).run w)) ∧
    (∀ named account result, ctx.Resolves named account →
      (a.health ctx account).run w = (result, w') →
      Answers written AdapterHealth.record.codec
        (fun message => {
          connected := false
          account
          lastEvent := none
          error := some message
          details := none })
        w' result ((execute a ctx source (.health named)).run w)) ∧
    (∀ named account format result, ctx.Resolves named account →
      (a.monitor ctx account).run w = (result, w') →
      ∃ answer, (execute a ctx source (.monitor named format)).run w = (answer, w') ∧
        Returns "monitor" result answer) ∧
    (∀ named account since format result, ctx.Resolves named account →
      (a.backfill ctx account since).run w = (result, w') →
      ∃ answer, (execute a ctx source (.backfill named since format)).run w = (answer, w') ∧
        Returns "backfill" result answer) ∧
    ∀ action result, (a.accounts ctx).run w = (result, w') →
      ∃ listed, Returns "accounts list" result listed ∧
        match listed with
        | .error e => (execute a ctx source (.accounts action)).run w = (.error e, w')
        | .ok accounts => ∃ w'', (execute a ctx source (.accounts action)).run w = (.ok (), w'') ∧
            Adds written ((Json.Codec.list AdapterAccount.record.codec).encode accounts) w' w'' := by
  refine ⟨?_, ?_, ?_, ?_, ?_⟩
  · intro message account result haccount hrun
    have hrequest : request ctx message = { message with account } := by
      rw [request, haccount.eq]
    rw [execute, hrequest, run_bind_of_run hrun]
    exact answers_answer hsink _ _ _ result w'
  · intro named account result haccount hrun
    rw [execute, haccount.eq, run_bind_of_run hrun]
    exact answers_answer hsink _ _ _ result w'
  · intro named account format result haccount hrun
    rw [execute, haccount.eq, run_bind_of_run hrun]
    exact ⟨_, rfl, returns_mapError "monitor" result⟩
  · intro named account since format result haccount hrun
    rw [execute, haccount.eq, run_bind_of_run hrun]
    exact ⟨_, rfl, returns_mapError "backfill" result⟩
  · intro action result hrun
    refine ⟨_, returns_mapError "accounts list" result, ?_⟩
    rw [execute, run_bind_of_run hrun]
    cases result with
    | error chain => rfl
    | ok accounts => exact adds_write hsink _ accounts w'

end

/-- An adapter that has given up sending and does not reach its server. -/
def idle : Adapter (StateM (Stream.Tray true)) where
  info := ⟨"idle", "Idle", "0.1.0", [], none, false, .none⟩
  send _ _ := return .error ((ErrorChain.ofError (.command (.unsupported "send"))).wrap "closed")
  health _ _ := return .error (((⟨.command (.executionFailed "ping" "timeout"), []⟩ :
    ErrorChain).wrap "server").wrap "network")
  accounts _ := return .error ((ErrorChain.ofText "no disk").wrap "read accounts")

def noInput : Input.Source (StateM (Stream.Tray true)) :=
  Input.source ⟨[], .closed⟩

theorem outcomes_answered_idle :
    (execute idle ⟨none⟩ noInput (.send ⟨none, "you", "hi", none, none, none, none⟩)).run ⟨[]⟩ =
        (.error (.command (.unsupported "send")), ⟨[]⟩) ∧
      ((execute idle ⟨none⟩ noInput (.health (some "me"))).run ⟨[]⟩).2.records =
        ["\x7b\"connected\":false,\"account\":\"me\",\"error\":\"timeout\"\x7d\n"] ∧
      ((execute idle ⟨none⟩ noInput (.accounts none)).run ⟨[]⟩).1 =
        .error (.command (.executionFailed "accounts list" "read accounts: no disk")) := by
  obtain ⟨hsend, hhealth, -, -, haccounts⟩ :=
    outcomes_answered Stream.sink_tray idle ⟨none⟩ noInput ⟨[]⟩ ⟨[]⟩
  refine ⟨?_, ?_, ?_⟩
  · have hanswers := hsend ⟨none, "you", "hi", none, none, none, none⟩ "" _ (.unknown rfl) rfl
    generalize (execute idle ⟨none⟩ noInput _).run _ = answered at hanswers ⊢
    cases hanswers with
    | failed hsupported => exact absurd (.error _ _) (hsupported "send")
    | unsupported h =>
        cases h
        rfl
  · have hanswers := hhealth (some "me") "me" _ (.named "me") rfl
    generalize (execute idle ⟨none⟩ noInput _).run _ = answered at hanswers ⊢
    cases hanswers with
    | unsupported h => cases h
    | failed _ htells hline =>
        cases htells with
        | reason h =>
            cases h
            rw [hline.written]
            decide +kernel
        | held h hother =>
            cases h
            exact absurd rfl (hother "ping" "timeout")
  · obtain ⟨listed, hreturns, haccounts⟩ := haccounts none _ rfl
    cases hreturns with
    | error h =>
        rw [haccounts]
        cases h with
        | held h => cases h
        | foreign => rfl

end Execute

end ChannelAdapter
