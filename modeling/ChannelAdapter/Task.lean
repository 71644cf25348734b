/-!
Tasks: computations that may have to wait. A task is resumed, again and again, until it is done.
-/

namespace ChannelAdapter

inductive Task (ω α : Type)
  | done (a : α)
  /-- Waits: when it is resumed it changes the world, and goes on by what it has found there. -/
  | waits (step : ω → ω) (rest : ω → Task ω α)

namespace Task

variable {ω α β : Type}

def bind (f : α → Task ω β) : Task ω α → Task ω β
  | .done a => f a
  | .waits step rest => .waits step fun w => (rest w).bind f

instance : Monad (Task ω) where
  pure := .done
  bind t f := t.bind f

def run : Task ω α → StateM ω α
  | .done a => pure a
  | .waits step rest => do
      let w ← get
      set (step w)
      (rest w).run

@[simp] theorem run_pure (a : α) : (pure a : Task ω α).run = pure a := rfl

@[simp] theorem run_bind (t : Task ω α) (f : α → Task ω β) :
    (t >>= f).run = t.run >>= fun a => (f a).run := by
  induction t with
  | done a => rfl
  | waits step rest ih =>
      funext w
      exact congrFun (ih w) (step w)

end Task

end ChannelAdapter
