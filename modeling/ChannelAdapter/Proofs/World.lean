import ChannelAdapter.Proofs.Clock
import ChannelAdapter.World
/-!
How a world goes on. Its clock tells the time of its programs; to write a record takes no time, but
may be what a cancellation waits for.
-/

namespace ChannelAdapter

namespace World

theorem timed_clock : Timed World.clock where
  check _ := rfl
  sleep _ _ := rfl

section
variable (w : World) (path : String) (change : Files → List String → Files)

@[simp] theorem clock_onFile : (w.onFile path change).clock = w.clock := by
  unfold onFile
  split <;> rfl

@[simp] theorem ids_onFile : (w.onFile path change).ids = w.ids := by
  unfold onFile
  split <;> rfl

end

variable (w : World)

theorem clock_happen (h : Happening) :
    (w.happen h).clock = w.clock ∨ (w.happen h).clock = w.clock.cancel := by
  cases h with
  | cancel => exact .inr rfl
  | grow path => exact .inl (clock_onFile w path _)
  | replace path => exact .inl (clock_onFile w path _)
  | remove path => exact .inl (clock_onFile w path _)

theorem ids_happen (h : Happening) : (w.happen h).ids = w.ids := by
  cases h with
  | cancel => rfl
  | grow path => exact ids_onFile w path _
  | replace path => exact ids_onFile w path _
  | remove path => exact ids_onFile w path _

/-- What holds with a record more, and whatever happens, holds once the record is written. -/
theorem write_induction {motive : World → Prop} (record : String)
    (push : motive { w with records := w.records.push record })
    (happen : ∀ (w : World) (h : Happening), motive w → motive (w.happen h)) :
    motive (w.write record) := by
  have hdue (due : List (Nat × Happening)) (w : World) (hw : motive w) :
      motive (due.foldl (fun w timed => w.happen timed.2) w) := by
    induction due generalizing w with
    | nil => exact hw
    | cons first due ih => exact ih _ (happen w first.2 hw)
  exact hdue _ _ push

theorem clock_write (record : String) :
    (w.write record).clock = w.clock ∨ (w.write record).clock = w.clock.cancel := by
  apply w.write_induction (motive := fun v => v.clock = w.clock ∨ v.clock = w.clock.cancel)
    record (.inl rfl)
  intro v h hv
  rcases hv with hv | hv
  · rw [← hv]
    exact v.clock_happen h
  · right
    rcases v.clock_happen h with hclock | hclock
    · rw [hclock, hv]
    · rw [hclock, hv]
      rfl

theorem ids_write (record : String) : (w.write record).ids = w.ids := by
  apply w.write_induction (motive := fun v => v.ids = w.ids) record rfl
  intro v h hv
  rw [v.ids_happen h, hv]

theorem leads_write (record : String) : w.clock.Leads (w.write record).clock := by
  rcases w.clock_write record with h | h
  · rw [h]
    exact .refl _
  · rw [h]
    exact Clock.leads_cancel _

theorem now_write (record : String) : (w.write record).clock.now = w.clock.now := by
  rcases w.clock_write record with h | h <;> rw [h]
  rfl

end World

end ChannelAdapter
