/-!
Programs that are watched. A program over a world is run with its steps noted; it does what it does
unwatched, and what is known of its steps is known of what they note. Acts that have been noted can
be carried out again, which tells the world that each of them found.
-/

namespace ChannelAdapter

theorem run_bind_of_run {ω α β : Type} {x : StateM ω α} {f : α → StateM ω β} {w w' : ω} {a : α}
    (h : x.run w = (a, w')) : (x >>= f).run w = (f a).run w' := by
  rw [StateT.run_bind, h]
  rfl

/-- Programs over a world, with the acts that have been noted, in order. -/
abbrev Watched (α ω : Type) : Type → Type :=
  StateT (List α) (StateM ω)

namespace Watched

variable {α ω β γ : Type}

/-- Carries out a step and notes it, with what it gives. -/
def noting (act : β → α) (x : StateM ω β) : Watched α ω β := do
  let b ← x
  modify (· ++ [act b])
  return b

/-- The watched program `x` does in the world `w` what `y` does, and notes some acts besides. -/
def Shows (x : Watched α ω β) (y : StateM ω β) (w : ω) (post : β → List α → ω → Prop) : Prop :=
  ∃ b acts w', y.run w = (b, w') ∧ (∀ log, (x.run log).run w = ((b, log ++ acts), w')) ∧
    post b acts w'

variable {w : ω} {post : β → List α → ω → Prop}

theorem Shows.pure {b : β} (h : post b [] w) : Shows (pure b) (pure b) w post := by
  refine ⟨b, [], w, rfl, ?_, h⟩
  intro log
  rw [List.append_nil]
  rfl

theorem Shows.lift (x : StateM ω β) :
    Shows (liftM x : Watched α ω β) x w fun b acts w' => acts = [] ∧ x.run w = (b, w') := by
  refine ⟨(x.run w).1, [], (x.run w).2, rfl, ?_, rfl, rfl⟩
  intro log
  rw [List.append_nil]
  rfl

theorem Shows.bind {x : Watched α ω β} {y : StateM ω β} {f : β → Watched α ω γ}
    {g : β → StateM ω γ} {next : γ → List α → ω → Prop} (h : Shows x y w post)
    (hnext : ∀ b acts w', post b acts w' →
      Shows (f b) (g b) w' fun c more w'' => next c (acts ++ more) w'') :
    Shows (x >>= f) (y >>= g) w next := by
  obtain ⟨b, acts, w', hy, hx, hpost⟩ := h
  obtain ⟨c, more, w'', hg, hf, hmore⟩ := hnext b acts w' hpost
  refine ⟨c, acts ++ more, w'', ?_, ?_, hmore⟩
  · rw [run_bind_of_run hy]
    exact hg
  · intro log
    rw [StateT.run_bind, StateT.run_bind, hx, ← List.append_assoc]
    exact hf _

theorem Shows.noting_bind {act : β → α} {x : StateM ω β} {f : β → Watched α ω γ}
    {g : β → StateM ω γ} {next : γ → List α → ω → Prop}
    (hnext : ∀ b w', x.run w = (b, w') →
      Shows (f b) (g b) w' fun c more w'' => next c (act b :: more) w'') :
    Shows (noting act x >>= f) (x >>= g) w next := by
  have hstep : Shows (noting act x) x w fun b acts w' => acts = [act b] ∧ x.run w = (b, w') :=
    ⟨(x.run w).1, [act (x.run w).1], (x.run w).2, rfl, fun _ => rfl, rfl, rfl⟩
  apply hstep.bind
  rintro b _ w' ⟨rfl, hx⟩
  exact hnext b w' hx

theorem Shows.mono {x : Watched α ω β} {y : StateM ω β} {weaker : β → List α → ω → Prop}
    (h : Shows x y w post) (hpost : ∀ b acts w', post b acts w' → weaker b acts w') :
    Shows x y w weaker := by
  obtain ⟨b, acts, w', hy, hx, hb⟩ := h
  exact ⟨b, acts, w', hy, hx, hpost b acts w' hb⟩

section
variable {x : Watched α ω β} {y : StateM ω β} (h : Shows x y w post)
include h

theorem Shows.with_run : Shows x y w fun b acts w' => y.run w = (b, w') ∧ post b acts w' := by
  obtain ⟨b, acts, w', hy, hx, hpost⟩ := h
  exact ⟨b, acts, w', hy, hx, hy, hpost⟩

theorem Shows.run_nil : post (y.run w).1 ((x.run []).run w).1.2 (y.run w).2 := by
  obtain ⟨b, acts, w', hy, hx, hpost⟩ := h
  rw [hy, hx]
  exact hpost

/-- To be watched changes neither what the program gives nor what it makes of the world. -/
theorem Shows.run_watched :
    (x.run []).run w = (((y.run w).1, ((x.run []).run w).1.2), (y.run w).2) := by
  obtain ⟨b, acts, w', hy, hx, -⟩ := h
  rw [hy, hx]

end

/-! Acts that are carried out again. -/

section
variable (perform : α → StateM ω α)

def replay (w : ω) (acts : List α) : ω :=
  acts.foldl (fun w act => ((perform act).run w).2) w

/-- Acts that lead from one world to another. Each gives there what has been noted of it. -/
inductive Path : ω → List α → ω → Prop
  | nil (w : ω) : Path w [] w
  | cons {w w' w'' : ω} {act : α} {acts : List α} (hact : (perform act).run w = (act, w'))
      (hacts : Path w' acts w'') : Path w (act :: acts) w''

@[simp] theorem replay_nil (w : ω) : replay perform w [] = w := rfl

@[simp] theorem replay_cons (w : ω) (act : α) (acts : List α) :
    replay perform w (act :: acts) = replay perform ((perform act).run w).2 acts := rfl

@[simp] theorem replay_append (w : ω) (acts more : List α) :
    replay perform w (acts ++ more) = replay perform (replay perform w acts) more :=
  List.foldl_append

end

section
variable {perform : α → StateM ω α} {w w' w'' : ω} {acts more : List α}

theorem Path.eq_replay (h : Path perform w acts w') : w' = replay perform w acts := by
  induction h with
  | nil => rfl
  | cons hact _ ih => rw [ih, replay_cons, hact]

theorem Path.append (h : Path perform w acts w') (hmore : Path perform w' more w'') :
    Path perform w (acts ++ more) w'' := by
  induction h with
  | nil => exact hmore
  | cons hact _ ih => exact .cons hact (ih hmore)

theorem Path.split (h : Path perform w (acts ++ more) w'') :
    Path perform w acts (replay perform w acts) ∧
      Path perform (replay perform w acts) more w'' := by
  induction acts generalizing w with
  | nil => exact ⟨.nil w, h⟩
  | cons act acts ih =>
      cases h with
      | cons hact hacts =>
          rw [replay_cons, hact]
          obtain ⟨hfront, hback⟩ := ih hacts
          exact ⟨.cons hact hfront, hback⟩

theorem Path.noting (act : β → α) {x : StateM ω β} {b : β} {acts : List α}
    (hperform : perform (act b) = act <$> x) (hx : x.run w = (b, w'))
    (h : Path perform w' acts w'') : Path perform w (act b :: acts) w'' := by
  refine .cons ?_ h
  rw [hperform, StateT.run_map, hx]
  rfl

end

end Watched

end ChannelAdapter
