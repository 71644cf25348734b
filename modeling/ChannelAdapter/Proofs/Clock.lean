import ChannelAdapter.Clock
/-!
How a clock goes on: never back, and once cancelled for good. It is never past a cancellation that
it has not noticed.
-/

namespace ChannelAdapter

namespace Clock

def Punctual (c : Clock) : Prop :=
  c.isCancelled = false → ∀ t, c.cancelAt = some t → c.now ≤ t

/-- What may become of a clock. -/
structure Leads (c c' : Clock) : Prop where
  now_le : c.now ≤ c'.now
  isCancelled : c.isCancelled = true → c'.isCancelled = true
  punctual : c.Punctual → c'.Punctual

variable {c c' c'' : Clock}

theorem punctual_start (cancelAt : Option Nat) : (start cancelAt).Punctual := by
  intro _ t _
  exact Nat.zero_le t

theorem punctual_of_isCancelled (h : c.isCancelled = true) : c.Punctual := by
  intro hc
  rw [h] at hc
  cases hc

theorem Leads.refl (c : Clock) : Leads c c :=
  ⟨Nat.le_refl _, id, id⟩

theorem Leads.trans (h : Leads c c') (h' : Leads c' c'') : Leads c c'' where
  now_le := Nat.le_trans h.now_le h'.now_le
  isCancelled hc := h'.isCancelled (h.isCancelled hc)
  punctual hc := h'.punctual (h.punctual hc)

theorem leads_cancel (c : Clock) : Leads c c.cancel :=
  ⟨Nat.le_refl _, fun _ => rfl, fun _ => punctual_of_isCancelled rfl⟩

theorem punctual_advance (c : Clock) (ms : Nat) : (c.advance ms).Punctual := by
  intro hc t ht
  change (c.isCancelled || c.cancelAt.any (· ≤ c.now + min longest ms)) = false at hc
  change c.cancelAt = some t at ht
  rw [ht, Bool.or_eq_false_iff] at hc
  have hlt : ¬ t ≤ c.now + min longest ms := by simpa using hc.2
  exact Nat.le_of_not_le hlt

theorem leads_advance (c : Clock) (ms : Nat) : Leads c (c.advance ms) where
  now_le := Nat.le_add_right _ _
  isCancelled hc := by rw [advance, hc, Bool.true_or]
  punctual _ := punctual_advance c ms

theorem leads_sleep (c : Clock) (ms : Nat) : Leads c (c.sleep ms) := by
  cases hc : c.isCancelled with
  | true =>
      rw [sleep_of_isCancelled hc]
      exact .refl c
  | false =>
      rw [sleep, hc, if_neg Bool.false_ne_true]
      split
      · next t ht =>
          split
          · exact ⟨Nat.le_max_left _ _, fun _ => rfl, fun _ => punctual_of_isCancelled rfl⟩
          · exact leads_advance c ms
      · exact leads_advance c ms

theorem sleep_of_due {t ms : Nat} (hpunctual : c.Punctual) (hc : c.isCancelled = false)
    (ht : c.cancelAt = some t) (hdue : t ≤ c.now + min longest ms) :
    (c.sleep ms).now = t ∧ (c.sleep ms).isCancelled = true := by
  rw [sleep, hc, if_neg Bool.false_ne_true]
  simp only [ht, if_pos hdue]
  exact ⟨Nat.max_eq_right (hpunctual hc t ht), trivial⟩

end Clock

/-- Worlds that have a clock, by which they sleep and are cancelled. -/
structure Timed {ω : Type} [MonadClock (StateM ω)] (clock : ω → Clock) : Prop where
  check (w : ω) : (MonadClock.isCancelled : StateM ω Bool).run w = ((clock w).isCancelled, w)
  sleep (ms : Nat) (w : ω) :
    clock ((MonadClock.sleep ms : StateM ω Unit).run w).2 = (clock w).sleep ms

end ChannelAdapter
