/-!
Loops. The body of a loop either goes on, with another state, or leaves with a result. A loop that
ends has a list of rounds, and what each round keeps holds in all of them.
-/

namespace ChannelAdapter.Loop

variable {σ α : Type}

/-- The states in which the rounds of a loop begin, and the result that the last one leaves with. -/
inductive Rounds (body : σ → σ ⊕ α) : List σ → α → Prop
  | leave {s : σ} {a : α} (hbody : body s = .inr a) : Rounds body [s] a
  | again {s next : σ} {states : List σ} {a : α} (hbody : body s = .inl next)
      (hrest : Rounds body (next :: states) a) : Rounds body (s :: next :: states) a

/-- The rounds that go on: the state in which each begins, and the one that it leaves behind. -/
def turns (states : List σ) : List (σ × σ) :=
  states.zip states.tail

/-- Runs a loop whose body may fail. There is no result if a round fails, nor if one that goes on
does not leave a smaller state. -/
def run? (size : σ → Nat) (body : σ → Option (σ ⊕ α)) (s : σ) : Option α :=
  match body s with
  | none => none
  | some (.inr a) => some a
  | some (.inl next) => if size next < size s then run? size body next else none
termination_by size s

variable {body : σ → σ ⊕ α} {s : σ} {states : List σ} {a : α}

@[simp] theorem turns_singleton (s : σ) : turns [s] = [] := rfl

@[simp] theorem turns_cons (s next : σ) (states : List σ) :
    turns (s :: next :: states) = (s, next) :: turns (next :: states) := rfl

theorem Rounds.body_eq (h : Rounds body states a) {turn : σ × σ} (hturn : turn ∈ turns states) :
    body turn.1 = .inl turn.2 := by
  induction h with
  | leave => simp at hturn
  | again hbody _ ih =>
      rcases List.mem_cons.mp hturn with rfl | hturn
      · exact hbody
      · exact ih hturn

/-- A loop has the result of its rounds if none of them fails, given what they keep, and if each of
them that goes on leaves a smaller state. -/
theorem Rounds.run?_eq (h : Rounds body (s :: states) a) {body? : σ → Option (σ ⊕ α)}
    {size : σ → Nat} {P : σ → Prop} (hs : P s)
    (hnext : ∀ s next, P s → body s = .inl next → P next ∧ size next < size s)
    (hbody : ∀ s, P s → body? s = some (body s)) : run? size body? s = some a := by
  generalize hall : s :: states = all at h
  induction h generalizing s states with
  | leave hleave =>
      cases hall
      rw [run?, hbody _ hs, hleave]
  | again hagain _ ih =>
      cases hall
      obtain ⟨hkept, hsmaller⟩ := hnext _ _ hs hagain
      rw [run?, hbody _ hs, hagain]
      exact (if_pos hsmaller).trans (ih hkept rfl)

end ChannelAdapter.Loop
